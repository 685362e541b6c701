import ChattingServer.Requests
import ChattingServer.Foundation.Buckets

/-!
# Histories of whole handlers

The server between handlers that each run to their end, one after another:
`Handler.exec` is one of them, `run` a history from the empty server.  A
history also has a `Roster`, kept from the calls and their results alone: who
has joined and not left, who has logged in, and the sector each was last
allowed to move to.

`Orderly` is what every handler leaves behind: a mapped player carries its
session, is held by the map, and lies in the sector set its coordinates name
and in no other.  `orderly_run` is the outcome: the server's state shows
exactly the roster.
-/

namespace ChattingServer

/-- A handler with its arguments and what it finds outside the server. -/
inductive Handler where
  | join (now sessionID : UINT64)
  | leave (sessionID : UINT64)
  | recv (env : Env) (fuel : Nat) (sessionID : UINT64) (packet : CPacket)
  | complete (env : LoginEnv) (fuel : Nat) (sessionID : UINT64) (packet : CPacket) (success : Bool)
  | redis (env : LoginEnv) (fuel : Nat) (ok : Bool)

/-- The result of a handler, and the server it leaves: none if it does not
return. -/
def Handler.exec (s : ChatServer) : Handler → Option (Bool × ChatServer)
  | .join now sessionID => some (s.joinProc now sessionID)
  | .leave sessionID => some (s.leaveProc sessionID)
  | .recv env fuel sessionID packet => (s.recvProc env fuel sessionID packet).toOption
  | .complete env fuel sessionID packet success =>
      s.completeLogin env fuel sessionID packet success
  | .redis env fuel ok => s.redisThread env fuel ok

/-- A player as its clients know it. -/
structure Seat where
  logined : Bool
  sector : Option (WORD × WORD)
  deriving DecidableEq

/-- The players that have joined and not left, by session. -/
abbrev Roster : Type := UINT64 → Option Seat

namespace Roster

/-- A change to one session's seat, if it has one. -/
def change (roster : Roster) (sessionID : UINT64) (f : Seat → Seat) : Roster :=
  Function.update roster sessionID ((roster sessionID).map f)

theorem change_of_none {roster : Roster} {sessionID : UINT64} (absent : roster sessionID = none)
    (f : Seat → Seat) : roster.change sessionID f = roster := by
  rw [change, absent, Option.map_none, ← absent, Function.update_eq_self]

theorem change_of_some {roster : Roster} {sessionID : UINT64} {seat : Seat}
    (present : roster sessionID = some seat) {f g : Seat → Seat} (same : f seat = g seat) :
    roster.change sessionID f = roster.change sessionID g := by
  rw [change, change, present, Option.map_some, Option.map_some, same]

/-- A completed login, if it was a success. -/
def login (roster : Roster) (sessionID : UINT64) (success : Bool) : Roster :=
  if success then roster.change sessionID fun seat => { seat with logined := true } else roster

/-- What a handler that returned `ok` means for the roster.  `jobs` are the
logins that wait for `RedisThread`. -/
def next (roster : Roster) (jobs : List (UINT64 × CPacket)) (ok : Bool) : Handler → Roster
  | .join _ sessionID =>
      if ok then Function.update roster sessionID (some ⟨false, none⟩) else roster
  | .leave sessionID => Function.update roster sessionID none
  | .recv env _ sessionID packet =>
      let type := packet.readValue (0 : WORD)
      if type.1 = en_PACKET_CS_CHAT_REQ_SECTOR_MOVE ∧ ok then
        roster.change sessionID fun seat =>
          { seat with sector := some (moveWords env type.2.data) }
      else
        roster
  | .complete _ _ sessionID _ success => roster.login sessionID success
  | .redis _ _ success =>
      match jobs with
      | [] => roster
      | (sessionID, _) :: _ => roster.login sessionID success

end Roster

/-- A history, one handler after another, with the roster it makes. -/
def run : List Handler → ChatServer × Roster → Option (ChatServer × Roster)
  | [], p => some p
  | handler :: rest, (s, roster) =>
      (handler.exec s).bind fun (ok, s') => run rest (s', roster.next s.redisQ ok handler)

/-- The state a history from the empty server leads to. -/
def Reached (history : List Handler) (s : ChatServer) (roster : Roster) : Prop :=
  run history (ChatServer.start, fun _ => none) = some (s, roster)

namespace ChatServer

variable {s s' : ChatServer} {player : PlayerPtr} {sessionID : UINT64}

/-! ## The invariant -/

/-- The sets of the sectors, by coordinates. -/
def sectorAt (s : ChatServer) (cell : Nat × Nat) : List PlayerPtr := s.sector cell.2 cell.1

/-- The sector a mapped player's coordinates name. -/
def place (s : ChatServer) (player : PlayerPtr) : Option (Nat × Nat) :=
  let p := s.player player
  if s.players p.sessionID = some player ∧ isValidSector p.sectorX p.sectorY then
    some (p.sectorX.toNat, p.sectorY.toNat)
  else
    none

/-- What handlers leave behind. -/
structure Orderly (s : ChatServer) : Prop where
  session : ∀ {sessionID player}, s.players sessionID = some player →
    (s.player player).sessionID = sessionID
  staying : ∀ {sessionID player}, s.players sessionID = some player →
    (s.player player).closing = false
  held : ∀ {sessionID player}, s.players sessionID = some player → 1 ≤ (s.player player).ref
  made : ∀ {sessionID player}, s.players sessionID = some player → player < s.playerBlocks
  nodup : s.playerPool.Nodup
  unused : ∀ {player}, player ∈ s.playerPool →
    player < s.playerBlocks ∧ ∀ sessionID, s.players sessionID ≠ some player
  filed : Filed s.sectorAt s.place

theorem orderly_start : Orderly start where
  session := by intro _ _ joined; cases joined
  staying := by intro _ _ joined; cases joined
  held := by intro _ _ joined; cases joined
  made := by intro _ _ joined; cases joined
  nodup := List.nodup_nil
  unused := by intro _ free; cases free
  filed := by
    refine ⟨fun _ => List.nodup_nil, fun _ player => ?_⟩
    refine iff_of_false (List.not_mem_nil) ?_
    rw [place, if_neg (fun joined => by cases joined.1)]
    simp

theorem player_updatePlayer_self (s : ChatServer) (player : PlayerPtr) (f : Player → Player) :
    (s.updatePlayer player f).player player = f (s.player player) :=
  Function.update_self ..

theorem player_updatePlayer_of_ne (s : ChatServer) {player other : PlayerPtr}
    (different : other ≠ player) (f : Player → Player) :
    (s.updatePlayer player f).player other = s.player other :=
  Function.update_of_ne different ..

/-- Mapped players differ as their sessions do. -/
theorem Orderly.unique (orderly : Orderly s) {other : UINT64}
    (joined : s.players sessionID = some player) (joined' : s.players other = some player) :
    sessionID = other :=
  (orderly.session joined).symm.trans (orderly.session joined')

theorem Orderly.place_eq (orderly : Orderly s) (joined : s.players sessionID = some player) :
    s.place player =
      if isValidSector (s.player player).sectorX (s.player player).sectorY then
        some ((s.player player).sectorX.toNat, (s.player player).sectorY.toNat)
      else
        none := by
  rw [place]
  simp only [orderly.session joined, joined, true_and]

theorem Orderly.place_of_unmapped (unmapped : ∀ sessionID, s.players sessionID ≠ some player) :
    s.place player = none :=
  if_neg fun joined => unmapped _ joined.1

/-- A player's place depends on nothing but itself and whether it is mapped. -/
theorem place_congr (same : s'.player player = s.player player)
    (mapped : isValidSector (s.player player).sectorX (s.player player).sectorY = true →
      (s'.players (s.player player).sessionID = some player ↔
        s.players (s.player player).sessionID = some player)) :
    s'.place player = s.place player := by
  rw [place, place, same]
  by_cases inside : isValidSector (s.player player).sectorX (s.player player).sectorY = true
  · simp only [mapped inside]
  · rw [if_neg fun placed => inside placed.2, if_neg fun placed => inside placed.2]

/-- What a handler does beside the players does not matter. -/
theorem Orderly.beside (orderly : Orderly s) (accounts : INT64 → Option UINT64)
    (redisQ sent : List (UINT64 × CPacket)) :
    Orderly { s with accounts := accounts, redisQ := redisQ, sent := sent } :=
  ⟨orderly.session, orderly.staying, orderly.held, orderly.made, orderly.nodup, orderly.unused,
    orderly.filed⟩

/-- What a handler keeps of a mapped player. -/
structure Keeps (p p' : Player) : Prop where
  session : p'.sessionID = p.sessionID
  closing : p'.closing = p.closing
  held : 1 ≤ p'.ref

/-- A player may be changed if the sectors are changed along with its
coordinates. -/
theorem Orderly.replace (orderly : Orderly s) {f : Player → Player}
    (keeps : Keeps (s.player player) (f (s.player player))) (sector : Nat → Nat → List PlayerPtr)
    (filed : Filed { s with sector := sector }.sectorAt (s.updatePlayer player f).place) :
    Orderly { s.updatePlayer player f with sector := sector } where
  session := by
    intro sessionID q joined
    show ((s.updatePlayer player f).player q).sessionID = _
    rcases eq_or_ne q player with rfl | different
    · rw [player_updatePlayer_self, keeps.session]
      exact orderly.session joined
    · rw [player_updatePlayer_of_ne s different]
      exact orderly.session joined
  staying := by
    intro sessionID q joined
    show ((s.updatePlayer player f).player q).closing = _
    rcases eq_or_ne q player with rfl | different
    · rw [player_updatePlayer_self, keeps.closing]
      exact orderly.staying joined
    · rw [player_updatePlayer_of_ne s different]
      exact orderly.staying joined
  held := by
    intro sessionID q joined
    show 1 ≤ ((s.updatePlayer player f).player q).ref
    rcases eq_or_ne q player with rfl | different
    · rw [player_updatePlayer_self]
      exact keeps.held
    · rw [player_updatePlayer_of_ne s different]
      exact orderly.held joined
  made := orderly.made
  nodup := orderly.nodup
  unused := orderly.unused
  filed := filed

/-- A player that does not move may be changed. -/
theorem Orderly.updatePlayer (orderly : Orderly s) {f : Player → Player}
    (keeps : Keeps (s.player player) (f (s.player player)))
    (sectorX : (f (s.player player)).sectorX = (s.player player).sectorX)
    (sectorY : (f (s.player player)).sectorY = (s.player player).sectorY) :
    Orderly (s.updatePlayer player f) := by
  refine orderly.replace keeps s.sector ?_
  have same : (s.updatePlayer player f).place = s.place := by
    funext q
    rcases eq_or_ne q player with rfl | different
    · rw [place, place, player_updatePlayer_self, keeps.session, sectorX, sectorY]
      rfl
    · rw [place, place, player_updatePlayer_of_ne s different]
      rfl
  rw [same]
  exact orderly.filed

/-! ## A sector move -/

/-- Beside the sectors a move changes the player alone. -/
theorem moved_eq (s : ChatServer) (player : PlayerPtr) (x y : WORD) (now : UINT64) :
    ∃ sector, s.moved player x y now =
      { s.updatePlayer player (fun p =>
          { p with sectorX := x, sectorY := y, lastRecvTime := now }) with sector := sector } := by
  unfold moved
  dsimp only
  split <;> exact ⟨_, rfl⟩

theorem sectorAt_updateSector (s : ChatServer) (x y : WORD) (f : List PlayerPtr → List PlayerPtr) :
    (s.updateSector x y f).sectorAt =
      Function.update s.sectorAt (x.toNat, y.toNat) (f (s.sectorAt (x.toNat, y.toNat))) := by
  funext ⟨i, j⟩
  show Function.update s.sector y.toNat _ j i = _
  rcases eq_or_ne j y.toNat with rfl | row
  · rw [Function.update_self]
    rcases eq_or_ne i x.toNat with rfl | column
    · rw [Function.update_self, Function.update_self]
      rfl
    · rw [Function.update_of_ne column, Function.update_of_ne]
      · rfl
      · exact fun same => column (Prod.ext_iff.mp same).1
  · rw [Function.update_of_ne row, Function.update_of_ne]
    · rfl
    · exact fun same => row (Prod.ext_iff.mp same).2

theorem place_move (orderly : Orderly s) (joined : s.players sessionID = some player) {x y : WORD}
    (inside : isValidSector x y = true) (now : UINT64) :
    (s.updatePlayer player fun p =>
      { p with sectorX := x, sectorY := y, lastRecvTime := now }).place =
        Function.update s.place player (some (x.toNat, y.toNat)) := by
  funext q
  rcases eq_or_ne q player with rfl | different
  · rw [Function.update_self, place, player_updatePlayer_self]
    dsimp only
    rw [orderly.session joined]
    exact if_pos ⟨joined, inside⟩
  · rw [Function.update_of_ne different, place, place, player_updatePlayer_of_ne s different]
    rfl

theorem orderly_moved (orderly : Orderly s) (joined : s.players sessionID = some player)
    {x y : WORD} (inside : isValidSector x y = true) (now : UINT64) :
    Orderly (s.moved player x y now) := by
  have place := orderly.place_eq joined
  have held := orderly.held joined
  unfold moved
  dsimp only
  split_ifs with hadOld
  · rw [if_pos hadOld] at place
    have filed := orderly.filed.move place (x.toNat, y.toNat)
    refine orderly.replace
      (f := fun p => { p with sectorX := x, sectorY := y, lastRecvTime := now })
      ⟨rfl, rfl, held⟩ _ ?_
    rw [place_move orderly joined inside now]
    show Filed ((s.updateSector (s.player player).sectorX (s.player player).sectorY
      (·.erase player)).updateSector x y (·.insert player)).sectorAt _
    rw [sectorAt_updateSector, sectorAt_updateSector]
    exact filed
  · rw [if_neg hadOld] at place
    have filed := orderly.filed.add (b := (x.toNat, y.toNat)) place
    refine orderly.replace
      (f := fun p => { p with sectorX := x, sectorY := y, lastRecvTime := now })
      ⟨rfl, rfl, held⟩ _ ?_
    rw [place_move orderly joined inside now]
    show Filed (s.updateSector x y (·.insert player)).sectorAt _
    rw [sectorAt_updateSector]
    exact filed

/-! ## Releases and leaves -/

/-- A mapped player after its session has left. -/
def left (s : ChatServer) (sessionID : UINT64) (player : PlayerPtr) : ChatServer :=
  let p := s.player player
  { s.updatePlayer player fun p => { p with closing := true } with
    players := Function.update s.players sessionID none
    accounts :=
      if p.isLogined ∧ p.accountNo ≠ 0 ∧ s.accounts p.accountNo = some sessionID then
        Function.update s.accounts p.accountNo none
      else
        s.accounts
    sector :=
      if isValidSector p.sectorX p.sectorY then
        (s.updateSector p.sectorX p.sectorY (·.erase player)).sector
      else
        s.sector }

theorem leaveProc_of_none (absent : s.players sessionID = none) :
    s.leaveProc sessionID = (true, s) := by
  rw [leaveProc, absent]

theorem players_left (s : ChatServer) (sessionID : UINT64) (player : PlayerPtr) :
    (s.left sessionID player).players = Function.update s.players sessionID none := rfl

theorem player_left (s : ChatServer) (sessionID : UINT64) (player : PlayerPtr) :
    (s.left sessionID player).player =
      (s.updatePlayer player fun p => { p with closing := true }).player := rfl

/-- The reference `LeaveProc` takes it also drops, and the map's stays. -/
theorem leaveProc_of_some (orderly : Orderly s) (joined : s.players sessionID = some player) :
    s.leaveProc sessionID = (true, s.left sessionID player) := by
  have held := orderly.held joined
  have kept : ¬ (s.player player).ref = 0 := by omega
  rw [leaveProc, joined]
  dsimp only
  unfold left addRefPlayer
  by_cases erased : (s.player player).isLogined ∧ (s.player player).accountNo ≠ 0 ∧
      s.accounts (s.player player).accountNo = some sessionID <;>
    by_cases inside : isValidSector (s.player player).sectorX (s.player player).sectorY = true
  · simp only [if_pos erased, if_pos inside, releasePlayer, updatePlayer, updateSector,
      Function.update_self, Function.update_idem, kept, if_false, Int.add_sub_cancel]
  · simp only [if_pos erased, if_neg inside, releasePlayer, updatePlayer, updateSector,
      Function.update_self, Function.update_idem, kept, if_false, Int.add_sub_cancel]
  · simp only [if_neg erased, if_pos inside, releasePlayer, updatePlayer, updateSector,
      Function.update_self, Function.update_idem, kept, if_false, Int.add_sub_cancel]
  · simp only [if_neg erased, if_neg inside, releasePlayer, updatePlayer, updateSector,
      Function.update_self, Function.update_idem, kept, if_false, Int.add_sub_cancel]

theorem left_stayed (orderly : Orderly s) (joined : s.players sessionID = some player)
    {other : UINT64} {q : PlayerPtr} (mapped : (s.left sessionID player).players other = some q) :
    s.players other = some q ∧ (s.left sessionID player).player q = s.player q := by
  rw [players_left] at mapped
  rcases eq_or_ne other sessionID with rfl | different
  · rw [Function.update_self] at mapped
    cases mapped
  · rw [Function.update_of_ne different] at mapped
    refine ⟨mapped, ?_⟩
    rw [player_left, player_updatePlayer_of_ne]
    rintro rfl
    exact different (orderly.unique mapped joined)

theorem place_left (orderly : Orderly s) (joined : s.players sessionID = some player) :
    (s.left sessionID player).place = Function.update s.place player none := by
  funext q
  rcases eq_or_ne q player with rfl | different
  · rw [Function.update_self]
    refine Orderly.place_of_unmapped fun other mapped => ?_
    obtain ⟨before, -⟩ := left_stayed orderly joined mapped
    rw [← orderly.unique joined before, players_left, Function.update_self] at mapped
    cases mapped
  · rw [Function.update_of_ne different, place, place, player_left,
      player_updatePlayer_of_ne s different, players_left]
    rcases eq_or_ne (s.player q).sessionID sessionID with same | elsewhere
    · rw [same, Function.update_self, joined, if_neg (fun mapped => by cases mapped.1)]
      exact (if_neg fun mapped => different (Option.some.inj mapped.1).symm).symm
    · rw [Function.update_of_ne elsewhere]

theorem orderly_left (orderly : Orderly s) (joined : s.players sessionID = some player) :
    Orderly (s.left sessionID player) where
  session := by
    intro other q mapped
    obtain ⟨before, same⟩ := left_stayed orderly joined mapped
    rw [same]
    exact orderly.session before
  staying := by
    intro other q mapped
    obtain ⟨before, same⟩ := left_stayed orderly joined mapped
    rw [same]
    exact orderly.staying before
  held := by
    intro other q mapped
    obtain ⟨before, same⟩ := left_stayed orderly joined mapped
    rw [same]
    exact orderly.held before
  made := by
    intro other q mapped
    exact orderly.made (left_stayed orderly joined mapped).1
  nodup := orderly.nodup
  unused := by
    intro q free
    refine ⟨(orderly.unused free).1, fun other mapped => ?_⟩
    exact (orderly.unused free).2 other (left_stayed orderly joined mapped).1
  filed := by
    have was := orderly.place_eq joined
    rw [place_left orderly joined]
    split_ifs at was with inside
    · have sets : (s.left sessionID player).sectorAt =
          (s.updateSector (s.player player).sectorX (s.player player).sectorY
            (·.erase player)).sectorAt := by
        unfold left sectorAt
        dsimp only
        rw [if_pos inside]
      rw [sets, sectorAt_updateSector]
      exact orderly.filed.remove was
    · have sets : (s.left sessionID player).sectorAt = s.sectorAt := by
        unfold left sectorAt
        dsimp only
        rw [if_neg inside]
      rw [sets, ← was, Function.update_eq_self]
      exact orderly.filed

/-! ## Joins -/

/-- A block that is neither mapped nor in the pool. -/
structure Loose (s : ChatServer) (player : PlayerPtr) : Prop where
  unmapped : ∀ sessionID, s.players sessionID ≠ some player
  taken : player ∉ s.playerPool
  made : player < s.playerBlocks

/-- `Alloc` changes nothing but the pool. -/
theorem allocPlayer_cases (orderly : Orderly s) :
    ∃ player pool blocks,
      s.allocPlayer = (player, { s with playerPool := pool, playerBlocks := blocks }) ∧
      Orderly { s with playerPool := pool, playerBlocks := blocks } ∧
      Loose { s with playerPool := pool, playerBlocks := blocks } player := by
  unfold allocPlayer
  cases free : s.playerPool with
  | cons player rest =>
      have nodup := orderly.nodup
      rw [free, List.nodup_cons] at nodup
      have unused := fun {q} => free ▸ @orderly.unused q
      refine ⟨player, rest, s.playerBlocks, rfl, ?_, ?_⟩
      · exact ⟨orderly.session, orderly.staying, orderly.held, orderly.made, nodup.2,
          fun inside => unused (List.mem_cons_of_mem player inside), orderly.filed⟩
      · exact ⟨(unused List.mem_cons_self).2, nodup.1, (unused List.mem_cons_self).1⟩
  | nil =>
      refine ⟨s.playerBlocks, [], s.playerBlocks + 1, rfl, ?_, ?_⟩
      · exact ⟨orderly.session, orderly.staying, orderly.held,
          (fun joined => Nat.lt_succ_of_lt (orderly.made joined)), List.nodup_nil,
          (by intro q inside; cases inside), orderly.filed⟩
      · exact ⟨fun other joined => Nat.lt_irrefl _ (orderly.made joined), List.not_mem_nil,
          Nat.lt_succ_self _⟩

/-- A block nobody can reach may be written. -/
theorem Orderly.write (orderly : Orderly s) (loose : Loose s player) (f : Player → Player) :
    Orderly (s.updatePlayer player f) := by
  have kept : ∀ {other q}, s.players other = some q →
      (s.updatePlayer player f).player q = s.player q := by
    intro other q joined
    refine player_updatePlayer_of_ne s ?_ f
    rintro rfl
    exact loose.unmapped other joined
  refine ⟨?_, ?_, ?_, orderly.made, orderly.nodup, orderly.unused, ?_⟩
  · intro other q joined
    rw [kept joined]
    exact orderly.session joined
  · intro other q joined
    rw [kept joined]
    exact orderly.staying joined
  · intro other q joined
    rw [kept joined]
    exact orderly.held joined
  · have same : (s.updatePlayer player f).place = s.place := by
      funext q
      rcases eq_or_ne q player with rfl | different
      · rw [place_of_unmapped loose.unmapped]
        exact place_of_unmapped (s := s.updatePlayer q f) loose.unmapped
      · rw [place, place, player_updatePlayer_of_ne s different]
        rfl
    rw [same]
    exact orderly.filed

/-- A block of a refused join goes back to the pool. -/
theorem Orderly.free (orderly : Orderly s) (loose : Loose s player) :
    Orderly { s with playerPool := player :: s.playerPool } := by
  refine ⟨orderly.session, orderly.staying, orderly.held, orderly.made,
    List.nodup_cons.mpr ⟨loose.taken, orderly.nodup⟩, ?_, orderly.filed⟩
  intro q inside
  rcases List.mem_cons.mp inside with rfl | old
  · exact ⟨loose.made, loose.unmapped⟩
  · exact orderly.unused old

/-- A fresh player may be mapped to a session that has none. -/
theorem Orderly.map (orderly : Orderly s) (loose : Loose s player)
    (absent : s.players sessionID = none) (session : (s.player player).sessionID = sessionID)
    (staying : (s.player player).closing = false) (held : 1 ≤ (s.player player).ref)
    (nowhere : isValidSector (s.player player).sectorX (s.player player).sectorY = false) :
    Orderly { s with players := Function.update s.players sessionID (some player) } := by
  have cases' : ∀ {other q}, Function.update s.players sessionID (some player) other = some q →
      (other = sessionID ∧ q = player) ∨ s.players other = some q := by
    intro other q mapped
    rcases eq_or_ne other sessionID with rfl | different
    · rw [Function.update_self] at mapped
      exact Or.inl ⟨rfl, (Option.some.inj mapped).symm⟩
    · rw [Function.update_of_ne different] at mapped
      exact Or.inr mapped
  refine ⟨?_, ?_, ?_, ?_, orderly.nodup, ?_, ?_⟩
  · intro other q mapped
    rcases cases' mapped with ⟨rfl, rfl⟩ | before
    · exact session
    · exact orderly.session before
  · intro other q mapped
    rcases cases' mapped with ⟨rfl, rfl⟩ | before
    · exact staying
    · exact orderly.staying before
  · intro other q mapped
    rcases cases' mapped with ⟨rfl, rfl⟩ | before
    · exact held
    · exact orderly.held before
  · intro other q mapped
    rcases cases' mapped with ⟨rfl, rfl⟩ | before
    · exact loose.made
    · exact orderly.made before
  · intro q inside
    refine ⟨(orderly.unused inside).1, fun other mapped => ?_⟩
    rcases cases' mapped with ⟨rfl, rfl⟩ | before
    · exact loose.taken inside
    · exact (orderly.unused inside).2 other before
  · have same : ChatServer.place
        { s with players := Function.update s.players sessionID (some player) } = s.place := by
      funext q
      refine place_congr rfl fun inside => ?_
      dsimp only
      rcases eq_or_ne (s.player q).sessionID sessionID with same | elsewhere
      · rw [same, Function.update_self, absent]
        refine iff_of_false ?_ (by simp)
        rintro mapped
        rw [← Option.some.inj mapped, nowhere] at inside
        cases inside
      · rw [Function.update_of_ne elsewhere]
    rw [same]
    exact orderly.filed

/-! ## What the state shows -/

end ChatServer

/-- A block `JoinProc` has prepared. -/
def Player.joining (now sessionID : UINT64) : Player :=
  { Player.reset with sessionID := sessionID, lastRecvTime := now }

/-- What a player shows. -/
def Player.seat (p : Player) : Seat where
  logined := p.isLogined
  sector := if isValidSector p.sectorX p.sectorY then some (p.sectorX, p.sectorY) else none

namespace ChatServer

variable {s s' : ChatServer} {player : PlayerPtr} {sessionID : UINT64} {ok : Bool}

/-- What the mapped players show of themselves, by session. -/
def shown {α : Type} (g : Player → α) (s : ChatServer) (sessionID : UINT64) : Option α :=
  (s.players sessionID).map fun player => g (s.player player)

section Shown

variable {α : Type} (g : Player → α)

theorem shown_of_some (joined : s.players sessionID = some player) :
    s.shown g sessionID = some (g (s.player player)) := by
  rw [shown, joined]
  rfl

theorem shown_of_none (absent : s.players sessionID = none) : s.shown g sessionID = none := by
  rw [shown, absent]
  rfl

theorem shown_updatePlayer (orderly : Orderly s) (joined : s.players sessionID = some player)
    (f : Player → Player) :
    (s.updatePlayer player f).shown g =
      Function.update (s.shown g) sessionID (some (g (f (s.player player)))) := by
  funext other
  show (s.players other).map _ = _
  rcases eq_or_ne other sessionID with rfl | different
  · rw [Function.update_self, joined, Option.map_some, player_updatePlayer_self]
  · rw [Function.update_of_ne different, shown]
    cases mapped : s.players other with
    | none => rfl
    | some q =>
        rw [Option.map_some, Option.map_some, player_updatePlayer_of_ne]
        rintro rfl
        exact different (orderly.unique mapped joined)

/-- A change that is not shown. -/
theorem shown_updatePlayer_same (orderly : Orderly s) (joined : s.players sessionID = some player)
    {f : Player → Player} (same : g (f (s.player player)) = g (s.player player)) :
    (s.updatePlayer player f).shown g = s.shown g := by
  rw [shown_updatePlayer g orderly joined, same, ← shown_of_some g joined,
    Function.update_eq_self]

/-- A block nobody can reach is not shown. -/
theorem shown_write (loose : Loose s player) (f : Player → Player) :
    (s.updatePlayer player f).shown g = s.shown g := by
  funext other
  show (s.players other).map _ = (s.players other).map _
  cases joined : s.players other with
  | none => rfl
  | some q =>
      rw [Option.map_some, Option.map_some, player_updatePlayer_of_ne]
      rintro rfl
      exact loose.unmapped other joined

theorem shown_map (s : ChatServer) (sessionID : UINT64) (player : PlayerPtr) :
    shown g { s with players := Function.update s.players sessionID (some player) } =
      Function.update (s.shown g) sessionID (some (g (s.player player))) := by
  funext other
  rw [shown]
  dsimp only
  rcases eq_or_ne other sessionID with rfl | different
  · rw [Function.update_self, Function.update_self, Option.map_some]
  · rw [Function.update_of_ne different, Function.update_of_ne different]
    rfl

theorem shown_left (orderly : Orderly s) (joined : s.players sessionID = some player) :
    (s.left sessionID player).shown g = Function.update (s.shown g) sessionID none := by
  funext other
  rcases eq_or_ne other sessionID with rfl | different
  · rw [Function.update_self, shown, players_left, Function.update_self]
    rfl
  · rw [Function.update_of_ne different, shown, shown]
    cases mapped : (s.left sessionID player).players other with
    | none =>
        rw [players_left, Function.update_of_ne different] at mapped
        rw [mapped]
        rfl
    | some q =>
        obtain ⟨before, same⟩ := left_stayed orderly joined mapped
        rw [before, Option.map_some, Option.map_some, same]

/-- A session that leaves is not shown any more. -/
theorem shown_leaveProc (orderly : Orderly s) (sessionID : UINT64) :
    (s.leaveProc sessionID).2.shown g = Function.update (s.shown g) sessionID none := by
  cases joined : s.players sessionID with
  | none => rw [leaveProc_of_none joined, ← shown_of_none g joined, Function.update_eq_self]
  | some player =>
      rw [leaveProc_of_some orderly joined]
      exact shown_left g orderly joined

end Shown

/-- The roster the mapped players show. -/
def seating (s : ChatServer) : Roster := fun sessionID =>
  (s.players sessionID).map fun player => (s.player player).seat

theorem seating_eq (s : ChatServer) : s.seating = s.shown Player.seat := rfl

theorem seating_of_some (joined : s.players sessionID = some player) :
    s.seating sessionID = some (s.player player).seat :=
  shown_of_some Player.seat joined

theorem seating_of_none (absent : s.players sessionID = none) : s.seating sessionID = none :=
  shown_of_none Player.seat absent

theorem seating_updatePlayer (orderly : Orderly s) (joined : s.players sessionID = some player)
    (f : Player → Player) :
    (s.updatePlayer player f).seating =
      s.seating.change sessionID fun _ => (f (s.player player)).seat := by
  rw [seating_eq, shown_updatePlayer _ orderly joined, Roster.change, seating_of_some joined,
    seating_eq, Option.map_some]

/-! ## One handler -/

theorem orderly_leaveProc (orderly : Orderly s) (sessionID : UINT64) :
    Orderly (s.leaveProc sessionID).2 ∧
      (s.leaveProc sessionID).2.seating = Function.update s.seating sessionID none := by
  refine ⟨?_, shown_leaveProc Player.seat orderly sessionID⟩
  cases joined : s.players sessionID with
  | none =>
      rw [leaveProc_of_none joined]
      exact orderly
  | some player =>
      rw [leaveProc_of_some orderly joined]
      exact orderly_left orderly joined

/-- What `JoinProc` does: `t` is the server with a block prepared for the
session. -/
theorem joinProc_cases (orderly : Orderly s) (now sessionID : UINT64) :
    ∃ player t, Orderly t ∧ Loose t player ∧ t.players = s.players ∧ t.accounts = s.accounts ∧
      (∀ {α : Type} (g : Player → α), t.shown g = s.shown g) ∧
      t.player player = Player.joining now sessionID ∧
      (∀ q, q ≠ player → t.player q = s.player q) ∧
      s.joinProc now sessionID =
        if (s.players sessionID).isSome then
          (false, { t with playerPool := player :: t.playerPool })
        else
          (true, { t with players := Function.update t.players sessionID (some player) }) := by
  obtain ⟨player, pool, blocks, taken, allocated, loose⟩ := allocPlayer_cases orderly
  refine ⟨player, updatePlayer { s with playerPool := pool, playerBlocks := blocks } player
    (fun _ => Player.joining now sessionID), allocated.write loose _,
    ⟨loose.unmapped, loose.taken, loose.made⟩, rfl, rfl, fun g => shown_write g loose _,
    player_updatePlayer_self .., fun q different => player_updatePlayer_of_ne _ different _, ?_⟩
  rw [joinProc, taken]
  rfl

theorem accounts_joinProc (orderly : Orderly s) {now : UINT64} :
    (s.joinProc now sessionID).2.accounts = s.accounts := by
  obtain ⟨player, t, -, -, -, accounts, -, -, -, result⟩ := joinProc_cases orderly now sessionID
  rw [result]
  split <;> exact accounts

theorem shown_joinProc {α : Type} (g : Player → α) (orderly : Orderly s) (now sessionID : UINT64) :
    (s.joinProc now sessionID).2.shown g =
      if (s.players sessionID).isSome then s.shown g
      else Function.update (s.shown g) sessionID (some (g (Player.joining now sessionID))) := by
  obtain ⟨player, t, -, -, -, -, same, self, -, result⟩ := joinProc_cases orderly now sessionID
  rw [result]
  split
  · exact same g
  · rw [shown_map, same, self]

theorem orderly_joinProc (orderly : Orderly s) (now sessionID : UINT64) :
    Orderly (s.joinProc now sessionID).2 ∧
      (s.joinProc now sessionID).2.seating =
        if (s.joinProc now sessionID).1 then
          Function.update s.seating sessionID (some ⟨false, none⟩)
        else
          s.seating := by
  have seats := shown_joinProc Player.seat orderly now sessionID
  obtain ⟨player, t, written, loose, players, -, -, self, -, result⟩ :=
    joinProc_cases orderly now sessionID
  rw [seating_eq, seats, result]
  split
  · exact ⟨written.free loose, rfl⟩
  · rename_i absent
    rw [← players] at absent
    refine ⟨written.map loose (Option.not_isSome_iff_eq_none.mp absent) ?_ ?_ ?_ ?_, rfl⟩
    · rw [self]
      rfl
    · rw [self]
      rfl
    · rw [self]
      exact Int.le_refl 1
    · rw [self]
      rfl

/-- A player mapped after a join was mapped before it, or is not logged in. -/
theorem joinProc_mapped (orderly : Orderly s) {now : UINT64} {id : UINT64} {p : PlayerPtr}
    (mapped : (s.joinProc now sessionID).2.players id = some p) :
    ((s.joinProc now sessionID).2.player p).isLogined = false ∨
      s.players id = some p ∧ (s.joinProc now sessionID).2.player p = s.player p := by
  obtain ⟨player, t, -, loose, players, -, -, self, others, result⟩ :=
    joinProc_cases orderly now sessionID
  rw [result] at mapped ⊢
  rcases eq_or_ne p player with rfl | different
  · refine Or.inl ?_
    split <;> exact congrArg Player.isLogined self
  · refine Or.inr ?_
    by_cases present : (s.players sessionID).isSome = true
    · rw [if_pos present] at mapped ⊢
      exact ⟨players ▸ mapped, others p different⟩
    · rw [if_neg present] at mapped ⊢
      refine ⟨?_, others p different⟩
      dsimp only at mapped
      rcases eq_or_ne id sessionID with rfl | elsewhere
      · rw [Function.update_self] at mapped
        exact absurd (Option.some.inj mapped).symm different
      · rw [Function.update_of_ne elsewhere, players] at mapped
        exact mapped

theorem attended (orderly : Orderly s) (joined : s.players sessionID = some player) :
    s.Attended sessionID player :=
  ⟨joined, orderly.staying joined⟩

theorem acquirePlayer_of_none (absent : s.players sessionID = none) :
    s.acquirePlayer sessionID = (none, s) := by
  rw [acquirePlayer, absent]

/-- A player a successful login has been written to. -/
def loggedIn (account : INT64) (id nick : Vector WCHAR 20) (p : Player) : Player :=
  { p with isLogined := true, accountNo := account, id := id, nick := nick }

/-- What `CompleteLogin` does, the reference it takes for itself apart. -/
inductive Completes (s : ChatServer) (sessionID : UINT64) (account : INT64) :
    Bool → ChatServer → Prop
  | absent (success : Bool) (absent : s.players sessionID = none) :
      Completes s sessionID account success s
  | failure {player : PlayerPtr} (joined : s.players sessionID = some player) (res : CPacket) :
      Completes s sessionID account false (s.sendPacket sessionID res)
  | success {player : PlayerPtr} (joined : s.players sessionID = some player)
      (id nick : Vector WCHAR 20) (res : CPacket) :
      Completes s sessionID account true
        { s.updatePlayer player (loggedIn account id nick) with
          accounts := Function.update s.accounts account (some sessionID)
          sent := s.sent ++ [(sessionID, res)] }

theorem completeLogin_cases (orderly : Orderly s) {env : LoginEnv} {fuel : Nat} {packet : CPacket}
    {success : Bool} (done : s.completeLogin env fuel sessionID packet success = some (ok, s')) :
    ok = true ∧
      s.Completes sessionID (packet.readValue (0 : INT64)).1 success s' := by
  unfold completeLogin at done
  cases joined : s.players sessionID with
  | none =>
      rw [acquirePlayer_of_none joined] at done
      cases done
      exact ⟨rfl, .absent success joined⟩
  | some player =>
      have held := orderly.held joined
      have kept : ¬ (s.player player).ref = 0 := by omega
      have self := player_updatePlayer_self s player fun p => { p with ref := p.ref + 1 }
      rw [acquirePlayer_of_attended (attended orderly joined)] at done
      dsimp only at done
      rw [addRefPlayer, self, if_neg (not_not.mpr (orderly.session joined)), if_neg] at done
      · cases success with
        | false =>
            rw [if_neg Bool.false_ne_true] at done
            obtain ⟨res, -, same⟩ := Option.bind_eq_some_iff.mp done
            obtain ⟨rfl, rfl⟩ := Prod.mk.inj (Option.some.inj same)
            refine ⟨rfl, ?_⟩
            convert Completes.failure joined res using 1
            simp only [releasePlayer, sendPacket, updatePlayer, Function.update_self,
              Function.update_idem, kept, if_false, Int.add_sub_cancel, Function.update_eq_self]
        | true =>
            rw [if_pos rfl] at done
            obtain ⟨id, -, done⟩ := Option.bind_eq_some_iff.mp done
            obtain ⟨nick, -, done⟩ := Option.bind_eq_some_iff.mp done
            obtain ⟨res, -, same⟩ := Option.bind_eq_some_iff.mp done
            obtain ⟨rfl, rfl⟩ := Prod.mk.inj (Option.some.inj same)
            refine ⟨rfl, ?_⟩
            convert Completes.success joined id nick res using 1
            simp only [releasePlayer, sendPacket, updatePlayer, Function.update_self, loggedIn,
              Function.update_idem, kept, if_false, Int.add_sub_cancel]
      · dsimp only
        rw [orderly.staying joined]
        exact Bool.false_ne_true

/-- A player a request has been received from. -/
def heard (now : UINT64) (p : Player) : Player := { p with lastRecvTime := now }

/-- What a request does to the server, the reference taken for it apart. -/
inductive Receives (s : ChatServer) (env : Env) (sessionID : UINT64) (packet : CPacket) :
    Bool → ChatServer → Prop
  | absent (absent : s.players sessionID = none) : Receives s env sessionID packet false s
  | stood {player : PlayerPtr} {ok : Bool} (joined : s.players sessionID = some player)
      (other : (packet.readValue (0 : WORD)).1 = en_PACKET_CS_CHAT_REQ_SECTOR_MOVE → ok = false)
      (redisQ sent : List (UINT64 × CPacket)) :
      Receives s env sessionID packet ok
        { s.updatePlayer player (heard env.now) with redisQ := redisQ, sent := sent }
  | went {player : PlayerPtr} (joined : s.players sessionID = some player)
      (type : (packet.readValue (0 : WORD)).1 = en_PACKET_CS_CHAT_REQ_SECTOR_MOVE)
      (inside : isValidSector (moveWords env (packet.readValue (0 : WORD)).2.data).1
        (moveWords env (packet.readValue (0 : WORD)).2.data).2 = true) (res : CPacket) :
      Receives s env sessionID packet true
        (((s.updatePlayer player (heard env.now)).moved player
          (moveWords env (packet.readValue (0 : WORD)).2.data).1
          (moveWords env (packet.readValue (0 : WORD)).2.data).2 env.now).sendPacket sessionID res)

/-- What the `switch` of `RecvProc` comes to, if it returns. -/
theorem dispatch_cases {env : Env} {fuel : Nat} {type : WORD} {packet : CPacket}
    (done : s.dispatch env fuel sessionID player type packet = .ok (ok, s')) :
    ((type = en_PACKET_CS_CHAT_REQ_SECTOR_MOVE → ok = false) ∧
      ∃ redisQ sent, s' = { s with redisQ := redisQ, sent := sent }) ∨
    (type = en_PACKET_CS_CHAT_REQ_SECTOR_MOVE ∧ ok = true ∧
      isValidSector (moveWords env packet.data).1 (moveWords env packet.data).2 = true ∧
      ∃ res, s' = (s.moved player (moveWords env packet.data).1 (moveWords env packet.data).2
        env.now).sendPacket sessionID res) := by
  unfold dispatch at done
  split at done
  · rename_i login
    refine Or.inl ⟨fun move => absurd (login.symm.trans move) (by decide), ?_⟩
    unfold reqLoginRedis enqueueRedis at done
    dsimp only at done
    split_ifs at done <;> cases done <;> exact ⟨_, _, rfl⟩
  · split at done
    · rename_i move
      cases inside : isValidSector (moveWords env packet.data).1 (moveWords env packet.data).2 with
      | false =>
          rw [reqSectorMove_of_invalid s fuel inside] at done
          cases done
          exact Or.inl ⟨fun _ => rfl, _, _, rfl⟩
      | true =>
          obtain ⟨res, made⟩ := reqSectorMove_of_valid player sessionID s fuel inside
          rw [made] at done
          cases done
          exact Or.inr ⟨move, rfl, rfl, res, rfl⟩
    · rename_i other
      refine Or.inl ⟨fun move => absurd move other, ?_⟩
      split at done
      · rcases reqChat_cases done with ⟨-, rfl⟩ | ⟨-, -, -, res, rfl⟩ <;> exact ⟨_, _, rfl⟩
      · split at done <;> cases done <;> exact ⟨_, _, rfl⟩

theorem recvProc_cases (orderly : Orderly s) {env : Env} {fuel : Nat} {packet : CPacket}
    (done : s.recvProc env fuel sessionID packet = .ok (ok, s')) :
    s.Receives env sessionID packet ok s' := by
  cases joined : s.players sessionID with
  | none =>
      rw [recvProc, acquirePlayer_of_none joined] at done
      cases done
      exact .absent joined
  | some player =>
      have held := orderly.held joined
      have kept : ¬ (s.player player).ref = 0 := by omega
      rw [recvProc_of_attended (attended orderly joined)] at done
      cases handled : (s.begun env player).dispatch env fuel sessionID player
          (packet.readValue (0 : WORD)).1 (packet.readValue (0 : WORD)).2 with
      | error fault =>
          rw [handled] at done
          cases done
      | ok result =>
          rw [handled] at done
          cases done
          rcases dispatch_cases handled with ⟨other, redisQ, sent, same⟩ |
            ⟨type, accepted, inside, res, same⟩
          · rw [same]
            convert Receives.stood joined other redisQ sent using 1
            simp only [releasePlayer, begun, addRefPlayer, updatePlayer, Function.update_self,
              heard, Function.update_idem, kept, if_false, Int.add_sub_cancel]
          · rw [same, accepted]
            convert Receives.went joined type inside res using 1
            by_cases hadOld :
                isValidSector (s.player player).sectorX (s.player player).sectorY = true
            · simp only [releasePlayer, begun, addRefPlayer, moved, sendPacket, updateSector,
                updatePlayer, Function.update_self, heard, Function.update_idem, kept,
                if_pos hadOld, if_false, Int.add_sub_cancel]
            · simp only [releasePlayer, begun, addRefPlayer, moved, sendPacket, updateSector,
                updatePlayer, Function.update_self, heard, Function.update_idem, kept,
                if_neg hadOld, if_false, Int.add_sub_cancel]

theorem Completes.orderly (orderly : Orderly s) {account : INT64} {success : Bool}
    (completes : s.Completes sessionID account success s') :
    Orderly s' ∧ s'.seating = s.seating.login sessionID success := by
  cases completes with
  | absent success absent =>
      refine ⟨orderly, ?_⟩
      rw [Roster.login, Roster.change_of_none (seating_of_none absent), ite_self]
  | failure joined res => exact ⟨orderly.beside s.accounts s.redisQ _, rfl⟩
  | @success player joined id nick res =>
      have logined : Orderly (s.updatePlayer player (loggedIn account id nick)) :=
        orderly.updatePlayer ⟨rfl, rfl, orderly.held joined⟩ rfl rfl
      refine ⟨logined.beside _ s.redisQ _, ?_⟩
      show (s.updatePlayer player (loggedIn account id nick)).seating = _
      rw [seating_updatePlayer orderly joined, Roster.login, if_pos rfl]
      exact Roster.change_of_some (seating_of_some joined) rfl

theorem seating_moved (orderly : Orderly s) (joined : s.players sessionID = some player)
    {x y : WORD} (inside : isValidSector x y = true) (now : UINT64) :
    (s.moved player x y now).seating =
      s.seating.change sessionID fun seat => { seat with sector := some (x, y) } := by
  have shown := seating_updatePlayer orderly joined fun p =>
    { p with sectorX := x, sectorY := y, lastRecvTime := now }
  obtain ⟨sector, same⟩ := s.moved_eq player x y now
  rw [same]
  refine Eq.trans shown ?_
  refine Roster.change_of_some (seating_of_some joined) ?_
  rw [Player.seat, Player.seat]
  dsimp only
  rw [if_pos inside]

theorem Receives.orderly (orderly : Orderly s) {env : Env} {packet : CPacket}
    (receives : s.Receives env sessionID packet ok s') (fuel : Nat)
    (jobs : List (UINT64 × CPacket)) :
    Orderly s' ∧ s'.seating = s.seating.next jobs ok (.recv env fuel sessionID packet) := by
  cases receives with
  | absent absent => exact ⟨orderly, (if_neg fun accepted => Bool.false_ne_true accepted.2).symm⟩
  | @stood player _ joined other redisQ sent =>
      have visited : Orderly (s.updatePlayer player (heard env.now)) :=
        orderly.updatePlayer ⟨rfl, rfl, orderly.held joined⟩ rfl rfl
      refine ⟨visited.beside s.accounts redisQ sent, ?_⟩
      show (s.updatePlayer player (heard env.now)).seating = _
      rw [seating_eq, shown_updatePlayer_same _ orderly joined rfl]
      refine (if_neg fun accepted => ?_).symm
      rw [other accepted.1] at accepted
      exact Bool.false_ne_true accepted.2
  | @went player joined type inside res =>
      have visited : Orderly (s.updatePlayer player (heard env.now)) :=
        orderly.updatePlayer ⟨rfl, rfl, orderly.held joined⟩ rfl rfl
      refine ⟨(orderly_moved visited joined inside env.now).beside _ _ _, ?_⟩
      have shown := seating_moved visited joined inside env.now
      rw [seating_eq (s.updatePlayer player (heard env.now)),
        shown_updatePlayer_same _ orderly joined rfl] at shown
      rw [Roster.next, if_pos ⟨type, rfl⟩]
      generalize moveWords env (packet.readValue (0 : WORD)).2.data = cell at shown ⊢
      exact shown

theorem of_toOption {α ε : Type} {x : Except ε α} {a : α} (returns : x.toOption = some a) :
    x = .ok a := by
  cases x with
  | error fault => cases returns
  | ok b => rw [← Option.some.inj returns]

/-- A handler keeps the invariant, and what it does is what the roster says. -/
theorem orderly_exec (orderly : Orderly s) {handler : Handler}
    (done : handler.exec s = some (ok, s')) :
    Orderly s' ∧ s'.seating = s.seating.next s.redisQ ok handler := by
  cases handler with
  | join now sessionID =>
      have result := orderly_joinProc orderly now sessionID
      rw [Option.some.inj done] at result
      exact result
  | leave sessionID =>
      have result := orderly_leaveProc orderly sessionID
      rw [Option.some.inj done] at result
      exact result
  | recv env fuel sessionID packet =>
      exact (recvProc_cases orderly (of_toOption done)).orderly orderly fuel s.redisQ
  | complete env fuel sessionID packet success =>
      exact (completeLogin_cases orderly done).2.orderly orderly
  | redis env fuel success =>
      rw [Handler.exec, redisThread] at done
      cases waiting : s.redisQ with
      | nil =>
          rw [waiting] at done
          cases done
          exact ⟨orderly, rfl⟩
      | cons job jobs =>
          rw [waiting] at done
          obtain ⟨result, -, done⟩ := Option.bind_eq_some_iff.mp done
          have waits := orderly.beside s.accounts jobs s.sent
          exact (completeLogin_cases waits done).2.orderly waits

end ChatServer

/-- Every history keeps the invariant, and shows its roster. -/
theorem orderly_run {history : List Handler} {s s' : ChatServer} {roster roster' : Roster}
    (orderly : s.Orderly) (shown : s.seating = roster)
    (ran : run history (s, roster) = some (s', roster')) :
    s'.Orderly ∧ s'.seating = roster' := by
  induction history generalizing s roster with
  | nil =>
      cases ran
      exact ⟨orderly, shown⟩
  | cons handler rest ih =>
      obtain ⟨⟨ok, next⟩, done, ran⟩ := Option.bind_eq_some_iff.mp ran
      obtain ⟨kept, shows⟩ := ChatServer.orderly_exec orderly done
      rw [shown] at shows
      exact ih kept shows ran

/-- What the empty server's histories lead to. -/
theorem Reached.orderly {history : List Handler} {s : ChatServer} {roster : Roster}
    (reached : Reached history s roster) : s.Orderly ∧ s.seating = roster :=
  orderly_run ChatServer.orderly_start rfl reached

end ChattingServer
