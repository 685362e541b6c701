import ChattingServer.ChatThreads

/-!
# Who may use a player

A block of the pool is free, in the hands of the `JoinProc` that prepares it, or
published: mapped once, and from then on in the hands of everybody who acquired
it.  `Frame.fresh` are the places that have a block to themselves, `Frame.holds`
those whose reference `ref` counts.  `Owned` is the invariant: a published
player is counted exactly, its session does not change, and it is open exactly
while it is mapped.
-/

namespace ChattingServer

namespace ChatThreads

/-! ## Places -/

/-- The thread has the block to itself. -/
@[simp] def Frame.fresh (p : Nat) : Frame → Nat
  | .join (.prepare _ _ q) => share q p
  | .join (.emplace _ q) => share q p
  | .join (.free q) => share q p
  | .free q => share q p
  | _ => 0

/-- The thread will still drop a reference to the player. -/
@[simp] def Frame.holds (p : Nat) : Frame → Nat
  | .acquired _ _ q => share q p
  | .release q => share q p
  | .complete _ q _ _ => share q p
  | _ => 0

/-- The thread is `RedisThread`. -/
@[simp] def Frame.completes : Frame → Nat
  | .redis => 1
  | .acquire _ (.complete _) => 1
  | .acquired _ (.complete _) _ => 1
  | .complete .. => 1
  | _ => 0

/-- The player has been published, and is not back in the pool. -/
structure Published (s : Conf Frame ChatServer) (p : Nat) : Prop where
  made : p < s.mem.playerBlocks
  out : s.mem.playerPool.count p = 0
  alone : s.tally (Frame.fresh p) = 0

/-- What a place knows of the player it is about. -/
@[simp] def Frame.Fits (s : Conf Frame ChatServer) : Frame → Prop
  | .acquired sessionID _ p => Published s p ∧ (s.mem.player p).sessionID = sessionID
  | .complete sessionID p _ _ => Published s p ∧ (s.mem.player p).sessionID = sessionID
  | .leave sessionID p _ =>
      Published s p ∧ (s.mem.player p).sessionID = sessionID ∧ (s.mem.player p).closing = true
  | .release p => Published s p
  | .recv _ p _ _ _ => Published s p
  | .login _ p _ _ => Published s p
  | .move p _ _ => Published s p
  | .chat p _ => Published s p
  | .join (.emplace sessionID p) => ∃ now, s.mem.player p = Player.joining now sessionID
  | .free _ => False
  | _ => True

/-- The invariant. -/
structure Owned (s : Conf Frame ChatServer) : Prop where
  single : ∀ p : Nat, s.mem.playerPool.count p + s.tally (Frame.fresh p) ≤
    if p < s.mem.playerBlocks then 1 else 0
  mapped : ∀ {sessionID p}, s.mem.players sessionID = some p →
    Published s p ∧ (s.mem.player p).sessionID = sessionID ∧ (s.mem.player p).closing = false
  opens : ∀ {p}, Published s p → (s.mem.player p).closing = false →
    s.mem.players (s.mem.player p).sessionID = some p
  counted : ∀ {p}, Published s p → (s.mem.player p).ref = 1 + s.tally (Frame.holds p)
  fits : ∀ stack ∈ s.threads, ∀ f ∈ stack, f.Fits s

variable {s s' : Conf Frame ChatServer}

theorem published_iff {p : Nat} : Published s p ↔
    p < s.mem.playerBlocks ∧ s.mem.playerPool.count p + s.tally (Frame.fresh p) = 0 := by
  constructor
  · rintro ⟨made, out, alone⟩
    exact ⟨made, by omega⟩
  · rintro ⟨made, none⟩
    exact ⟨made, by omega, by omega⟩

/-- A block somebody has to itself is not published. -/
theorem not_published_of_fresh {stack : List Frame} (member : stack ∈ s.threads) {f : Frame}
    (inside : f ∈ stack) {p : PlayerPtr} (fresh : 0 < f.fresh p) : ¬ Published s p := by
  intro published
  have part := Conf.le_tally (w := Frame.fresh p) member inside
  rw [published.alone] at part
  omega

theorem Frame.Fits.published_of_holds {f : Frame} (fits : f.Fits s) {p : Nat}
    (held : 0 < f.holds p) : Published s p := by
  cases f with
  | acquired sessionID use q => exact eq_of_share_pos held ▸ fits.1
  | release q => exact eq_of_share_pos held ▸ fits
  | complete sessionID q found pc => exact eq_of_share_pos held ▸ fits.1
  | _ => exact absurd held (Nat.lt_irrefl 0)

/-- What one place knows outlasts a step that keeps published players. -/
theorem Frame.Fits.mono {f : Frame} (fits : f.Fits s)
    (kept : ∀ p, Published s p → Published s' p ∧
      (s'.mem.player p).sessionID = (s.mem.player p).sessionID ∧
      ((s.mem.player p).closing = true → (s'.mem.player p).closing = true))
    (prepared : ∀ sessionID p, f = .join (.emplace sessionID p) →
      s'.mem.player p = s.mem.player p) : f.Fits s' := by
  cases f with
  | acquired sessionID use p =>
      obtain ⟨published, session⟩ := fits
      obtain ⟨published', same, -⟩ := kept p published
      exact ⟨published', same.trans session⟩
  | complete sessionID p login pc =>
      obtain ⟨published, session⟩ := fits
      obtain ⟨published', same, -⟩ := kept p published
      exact ⟨published', same.trans session⟩
  | leave sessionID p pc =>
      obtain ⟨published, session, closing⟩ := fits
      obtain ⟨published', same, closes⟩ := kept p published
      exact ⟨published', same.trans session, closes closing⟩
  | release p => exact (kept p fits).1
  | recv sessionID p env fuel packet => exact (kept p fits).1
  | login sessionID p packet pc => exact (kept p fits).1
  | move p req pc => exact (kept p fits).1
  | chat p pc => exact (kept p fits).1
  | join pc =>
      cases pc with
      | emplace sessionID p =>
          obtain ⟨now, made⟩ := fits
          exact ⟨now, (prepared sessionID p rfl).trans made⟩
      | alloc now sessionID => trivial
      | prepare now sessionID p => trivial
      | free p => trivial
  | free p => exact fits
  | worker => trivial
  | redis => trivial
  | acquire sessionID use => trivial
  | erase sessionID => trivial
  | fault => trivial

/-! ## What a place does -/

/-- A memory in which nobody's session, closing flag or count has changed. -/
structure Calm (s : Conf Frame ChatServer) (m : ChatServer) : Prop where
  players : m.players = s.mem.players
  pool : m.playerPool = s.mem.playerPool
  blocks : m.playerBlocks = s.mem.playerBlocks
  ref : ∀ p, (m.player p).ref = (s.mem.player p).ref
  session : ∀ p, (m.player p).sessionID = (s.mem.player p).sessionID
  closing : ∀ p, (m.player p).closing = (s.mem.player p).closing
  others : ∀ p, ¬ Published s p → m.player p = s.mem.player p

theorem Calm.refl (s : Conf Frame ChatServer) : Calm s s.mem :=
  ⟨rfl, rfl, rfl, fun _ => rfl, fun _ => rfl, fun _ => rfl, fun _ _ => rfl⟩

/-- What is done beside the players does not matter. -/
theorem Calm.beside {m : ChatServer} (calm : Calm s m) (accounts : INT64 → Option UINT64)
    (sector : Nat → Nat → List PlayerPtr) (redisQ sent : List (UINT64 × CPacket)) :
    Calm s { m with accounts := accounts, sector := sector, redisQ := redisQ, sent := sent } :=
  ⟨calm.players, calm.pool, calm.blocks, calm.ref, calm.session, calm.closing, calm.others⟩

theorem calm_store {m : ChatServer} {c : Choice} {r : Unit} {p : PlayerPtr}
    (published : Published s p) {store : Store}
    (done : exec (.store p store) c s.mem = some (r, m))
    (ref : (store.apply (s.mem.player p)).ref = (s.mem.player p).ref)
    (session : (store.apply (s.mem.player p)).sessionID = (s.mem.player p).sessionID)
    (closing : (store.apply (s.mem.player p)).closing = (s.mem.player p).closing) :
    Calm s m := by
  obtain ⟨-, rfl⟩ := Prod.mk.inj (Option.some.inj done)
  have cases' : ∀ q, (q = p ∧ (s.mem.updatePlayer p store.apply).player q =
      store.apply (s.mem.player p)) ∨
      (q ≠ p ∧ (s.mem.updatePlayer p store.apply).player q = s.mem.player q) := by
    intro q
    rcases eq_or_ne q p with rfl | different
    · exact Or.inl ⟨rfl, ChatServer.player_updatePlayer_self ..⟩
    · exact Or.inr ⟨different, ChatServer.player_updatePlayer_of_ne _ different _⟩
  refine ⟨rfl, rfl, rfl, ?_, ?_, ?_, ?_⟩
  · intro q
    rcases cases' q with ⟨rfl, same⟩ | ⟨-, same⟩ <;> rw [same]
    exact ref
  · intro q
    rcases cases' q with ⟨rfl, same⟩ | ⟨-, same⟩ <;> rw [same]
    exact session
  · intro q
    rcases cases' q with ⟨rfl, same⟩ | ⟨-, same⟩ <;> rw [same]
    exact closing
  · intro q unpublished
    rcases cases' q with ⟨rfl, -⟩ | ⟨-, same⟩
    · exact absurd published unpublished
    · exact same

/-- `JoinProc` has mapped the player. -/
def mapped (m : ChatServer) (sessionID : UINT64) (p : PlayerPtr) : ChatServer :=
  { m with players := Function.update m.players sessionID (some p) }

/-- What a place does, with the frames it goes on with. -/
inductive Does (s : Conf Frame ChatServer) : Frame → List Frame → ChatServer → Prop
  | calm {f : Frame} {fs : List Frame} {m : ChatServer} (calm : Calm s m)
      (fresh : ∀ p, (fs.map (Frame.fresh p)).sum = f.fresh p)
      (holds : ∀ p, (fs.map (Frame.holds p)).sum = f.holds p)
      (fits : ∀ g ∈ fs, g.Fits s) : Does s f fs m
  | acquire {sessionID : UINT64} {use : Use} {p : PlayerPtr}
      (joined : s.mem.players sessionID = some p) :
      Does s (.acquire sessionID use) [.acquired sessionID use p] (s.mem.addRefPlayer p)
  | release {p : PlayerPtr} (kept : (s.mem.player p).ref ≠ 1) :
      Does s (.release p) [] (s.mem.updatePlayer p fun q => { q with ref := q.ref - 1 })
  | last {p : PlayerPtr} (last : (s.mem.player p).ref = 1) :
      Does s (.release p) [.free p] (s.mem.updatePlayer p fun q => { q with ref := q.ref - 1 })
  | alloc {now sessionID : UINT64} :
      Does s (.join (.alloc now sessionID)) [.join (.prepare now sessionID s.mem.allocPlayer.1)]
        s.mem.allocPlayer.2
  | prepare {now sessionID : UINT64} {p : PlayerPtr} :
      Does s (.join (.prepare now sessionID p)) [.join (.emplace sessionID p)]
        (s.mem.updatePlayer p fun _ => Player.joining now sessionID)
  | publish {sessionID : UINT64} {p : PlayerPtr} (absent : s.mem.players sessionID = none) :
      Does s (.join (.emplace sessionID p)) [] (mapped s.mem sessionID p)
  | discard {p : PlayerPtr} :
      Does s (.join (.free p)) [] { s.mem with playerPool := p :: s.mem.playerPool }
  | erase {sessionID : UINT64} {p : PlayerPtr} (joined : s.mem.players sessionID = some p) :
      Does s (.erase sessionID) [.leave sessionID p .isLogined, .release p]
        (erased s.mem sessionID p)

variable {m : ChatServer} {c : Choice}

theorem exec_load {α : Type} {p : PlayerPtr} {field : Player → α} {s : ChatServer} {r : α}
    (done : exec (.load p field) c s = some (r, m)) : field (s.player p) = r ∧ s = m :=
  Prod.mk.inj (Option.some.inj done)

theorem exec_sendLogin {sessionID : UINT64} {account : INT64} {status : BYTE} {s : ChatServer}
    {r : Unit} (done : exec (.sendLogin sessionID account status) c s = some (r, m)) :
    ∃ res, m = s.sendPacket sessionID res := by
  dsimp only [exec] at done
  obtain ⟨res, -, same⟩ := Option.map_eq_some_iff.mp done
  exact ⟨res, (Prod.mk.inj same).2.symm⟩

/-- A place that does nothing to counts goes on to others of its kind. -/
theorem Does.goesOn {f : Frame} {fs : List Frame} (calm : Calm s m)
    (light : ∀ p, f.fresh p = 0 ∧ f.holds p = 0)
    (next : ∀ g ∈ fs, (∀ p, g.fresh p = 0 ∧ g.holds p = 0) ∧ g.Fits s) : Does s f fs m := by
  refine .calm calm ?_ ?_ fun g member => (next g member).2
  · intro p
    rw [(light p).1]
    refine List.sum_eq_zero fun k member => ?_
    obtain ⟨g, inside, rfl⟩ := List.mem_map.mp member
    exact ((next g inside).1 p).1
  · intro p
    rw [(light p).2]
    refine List.sum_eq_zero fun k member => ?_
    obtain ⟨g, inside, rfl⟩ := List.mem_map.mp member
    exact ((next g inside).1 p).2

theorem LeaveProc.does {sessionID : UINT64} {p : PlayerPtr} {pc : LeaveProc}
    {r : (Frame.act (.leave sessionID p pc)).α} (fits : Frame.Fits s (.leave sessionID p pc))
    (done : exec (Frame.act (.leave sessionID p pc)).op c s.mem = some (r, m)) :
    Does s (.leave sessionID p pc) ((Frame.act (.leave sessionID p pc)).next r) m := by
  have on : ∀ {pc' : LeaveProc}, ∀ g ∈ [Frame.leave sessionID p pc'],
      (∀ q, g.fresh q = 0 ∧ g.holds q = 0) ∧ g.Fits s := by
    intro pc' g member
    rw [List.mem_singleton.mp member]
    exact ⟨fun _ => ⟨rfl, rfl⟩, fits⟩
  have light : ∀ q, Frame.fresh q (.leave sessionID p pc) = 0 ∧
      Frame.holds q (.leave sessionID p pc) = 0 := fun _ => ⟨rfl, rfl⟩
  cases pc with
  | isLogined =>
      obtain ⟨-, rfl⟩ := exec_load done
      cases r <;> exact .goesOn (Calm.refl s) light on
  | accountNo =>
      obtain ⟨-, rfl⟩ := exec_load done
      dsimp only [Frame.act, LeaveProc.act]
      split <;> exact .goesOn (Calm.refl s) light on
  | accounts =>
      refine .goesOn ?_ light on
      dsimp only [Frame.act, LeaveProc.act, exec] at done
      split at done
      · cases done
        exact (Calm.refl s).beside _ s.mem.sector s.mem.redisQ s.mem.sent
      · cases done
        exact Calm.refl s
  | sectorX =>
      obtain ⟨-, rfl⟩ := exec_load done
      exact .goesOn (Calm.refl s) light on
  | sectorY x =>
      obtain ⟨-, rfl⟩ := exec_load done
      dsimp only [Frame.act, LeaveProc.act]
      split <;> exact .goesOn (Calm.refl s) light on
  | sector =>
      cases done
      exact .goesOn ((Calm.refl s).beside s.mem.accounts _ s.mem.redisQ s.mem.sent) light on
  | closing =>
      refine .goesOn (calm_store fits.1 done rfl rfl fits.2.2.symm) light ?_
      intro g member
      cases member

/-- A request is being handled for the player. -/
@[simp] def Frame.Visits (p : PlayerPtr) : Frame → Prop
  | .recv _ q _ _ _ => q = p
  | .login _ q _ _ => q = p
  | .move q _ _ => q = p
  | .chat q _ => q = p
  | .fault => True
  | _ => False

theorem ReqChat.visits_scans {p : PlayerPtr} {res : CPacket} {targets : List UINT64}
    {cells : List (Nat × Nat)} : ∀ g ∈ ReqChat.scans p res targets cells, g.Visits p := by
  cases cells with
  | nil => cases targets <;> simp
  | cons cell cells => simp

theorem ReqChat.visits_next {p : PlayerPtr} {pc : ReqChat} (r : (Frame.act (.chat p pc)).α) :
    ∀ g ∈ (Frame.act (.chat p pc)).next r, g.Visits p := by
  cases pc with
  | isLogined env fuel packet =>
      cases r
      · simp
      · dsimp only [Frame.act, ReqChat.act, ReqChat.read]
        split
        · simp
        · split <;> simp
  | id chat account ids =>
      dsimp only [Frame.act, ReqChat.act]
      split <;> simp
  | nick chat account ids nicks =>
      dsimp only [Frame.act, ReqChat.act, ReqChat.built]
      split
      · simp
      · split <;> simp
  | cy res x =>
      dsimp only [Frame.act, ReqChat.act]
      split
      · exact ReqChat.visits_scans
      · simp
  | scan res targets cell cells => exact ReqChat.visits_scans
  | send res sid targets => cases targets <;> simp
  | _ => simp

/-- A handler stays with its player. -/
theorem Frame.Visits.next {p : PlayerPtr} {f : Frame} (visits : f.Visits p) (r : f.act.α) :
    ∀ g ∈ f.act.next r, g.Visits p := by
  cases f with
  | recv sessionID q env fuel packet =>
      cases visits
      dsimp only [Frame.act, dispatch]
      split
      · simp
      · split
        · split <;> simp
        · split <;> simp
  | login sessionID q packet pc =>
      cases visits
      cases pc with
      | closing => cases r <;> simp
      | sessionID =>
          dsimp only [Frame.act, ReqLogin.act]
          split <;> simp
      | accountNo =>
          dsimp only [Frame.act, ReqLogin.act]
          split <;> simp
      | isLogined => cases r <;> simp
      | push => simp
  | move q req pc =>
      cases visits
      cases pc with
      | time =>
          dsimp only [Frame.act, ReqSectorMove.act]
          split <;> simp
      | _ => simp
  | chat q pc =>
      cases visits
      exact ReqChat.visits_next r
  | fault => simp
  | _ => cases visits

theorem Frame.Visits.light {p : PlayerPtr} {f : Frame} (visits : f.Visits p) (q : PlayerPtr) :
    f.fresh q = 0 ∧ f.holds q = 0 := by
  cases f with
  | recv | login | move | chat | fault => exact ⟨rfl, rfl⟩
  | _ => cases visits

theorem Frame.Visits.fits {p : PlayerPtr} {f : Frame} (visits : f.Visits p)
    (published : Published s p) : f.Fits s := by
  cases f with
  | recv | login | move | chat =>
      cases visits
      exact published
  | fault => trivial
  | _ => cases visits

/-- A handler changes nobody's session, closing flag or count. -/
theorem Frame.Visits.calm {p : PlayerPtr} {f : Frame} (visits : f.Visits p)
    (published : Published s p) {r : f.act.α} (done : exec f.act.op c s.mem = some (r, m)) :
    Calm s m := by
  have same := Calm.refl s
  cases f with
  | recv sessionID q env fuel packet =>
      cases visits
      exact calm_store published done rfl rfl rfl
  | login sessionID q packet pc =>
      cases pc with
      | push =>
          cases done
          unfold ChatServer.enqueueRedis
          split
          · exact same.beside s.mem.accounts s.mem.sector _ s.mem.sent
          · exact same
      | _ =>
          obtain ⟨-, rfl⟩ := exec_load done
          exact same
  | move q req pc =>
      cases visits
      cases pc with
      | ox | oy =>
          obtain ⟨-, rfl⟩ := exec_load done
          exact same
      | sets oldX oldY =>
          cases done
          split <;> exact same.beside s.mem.accounts _ s.mem.redisQ s.mem.sent
      | sectorX | sectorY | time => exact calm_store published done rfl rfl rfl
      | send res =>
          cases done
          exact same.beside s.mem.accounts s.mem.sector s.mem.redisQ _
  | chat q pc =>
      cases pc with
      | scan res targets cell cells =>
          cases done
          exact same
      | send res sid targets =>
          cases done
          exact same.beside s.mem.accounts s.mem.sector s.mem.redisQ _
      | _ =>
          obtain ⟨-, rfl⟩ := exec_load done
          exact same
  | fault => cases done
  | _ => cases visits

theorem Frame.Visits.does {p : PlayerPtr} {f : Frame} (visits : f.Visits p)
    (published : Published s p) {r : f.act.α} (done : exec f.act.op c s.mem = some (r, m)) :
    Does s f (f.act.next r) m :=
  .goesOn (visits.calm published done) visits.light fun g member =>
    ⟨(visits.next r g member).light, (visits.next r g member).fits published⟩

theorem CompleteLogin.does {sessionID : UINT64} {p : PlayerPtr} {found : Login}
    {pc : CompleteLogin} {r : (Frame.act (.complete sessionID p found pc)).α}
    (fits : Frame.Fits s (.complete sessionID p found pc))
    (done : exec (Frame.act (.complete sessionID p found pc)).op c s.mem = some (r, m)) :
    Does s (.complete sessionID p found pc)
      ((Frame.act (.complete sessionID p found pc)).next r) m := by
  have goesOn : ∀ {m pc'}, Calm s m →
      Does s (.complete sessionID p found pc) [.complete sessionID p found pc'] m := by
    intro m pc' calm
    refine .calm calm (fun _ => rfl) (fun q => ?_) ?_
    · exact Nat.add_zero _
    · intro g member
      rw [List.mem_singleton.mp member]
      exact fits
  have ends : ∀ {m}, Calm s m →
      Does s (.complete sessionID p found pc) [.release p, .redis] m := by
    intro m calm
    refine .calm calm (fun _ => rfl) (fun q => ?_) ?_
    · exact Nat.add_zero _
    · intro g member
      rcases List.mem_cons.mp member with rfl | other
      · exact fits.1
      · rw [List.mem_singleton.mp other]
        trivial
  cases pc with
  | sessionID =>
      obtain ⟨session, rfl⟩ := exec_load done
      dsimp only [Frame.act, CompleteLogin.act]
      split
      · rename_i other
        exact absurd (session.symm.trans fits.2) other
      · exact goesOn (Calm.refl s)
  | closing =>
      obtain ⟨-, rfl⟩ := exec_load done
      cases r
      · dsimp only [Frame.act, CompleteLogin.act]
        split <;> exact goesOn (Calm.refl s)
      · exact ends (Calm.refl s)
  | accounts =>
      cases done
      exact goesOn ((Calm.refl s).beside _ s.mem.sector s.mem.redisQ s.mem.sent)
  | isLogined => exact goesOn (calm_store fits.1 done rfl rfl rfl)
  | accountNo => exact goesOn (calm_store fits.1 done rfl rfl rfl)
  | id i =>
      have stored : exec (.store p (.id i (charAt found.id i))) c s.mem = some (r, m) := done
      have calm := calm_store fits.1 stored (by simp only [Store.apply])
        (by simp only [Store.apply]) (by simp only [Store.apply])
      dsimp only [Frame.act, CompleteLogin.act]
      split
      · exact goesOn calm
      · split <;> exact goesOn calm
  | nick i =>
      have stored : exec (.store p (.nick i (charAt found.nick i))) c s.mem = some (r, m) := done
      have calm := calm_store fits.1 stored (by simp only [Store.apply])
        (by simp only [Store.apply]) (by simp only [Store.apply])
      dsimp only [Frame.act, CompleteLogin.act]
      split
      · exact goesOn calm
      · split <;> exact goesOn calm
  | send status =>
      obtain ⟨res, rfl⟩ := exec_sendLogin done
      exact ends ((Calm.refl s).beside s.mem.accounts s.mem.sector s.mem.redisQ _)
  | invalid => cases done

theorem JoinProc.does {pc : JoinProc} {r : (Frame.act (.join pc)).α}
    (done : exec (Frame.act (.join pc)).op c s.mem = some (r, m)) :
    Does s (.join pc) ((Frame.act (.join pc)).next r) m := by
  cases pc with
  | alloc now sessionID =>
      have same : s.mem.allocPlayer = (r, m) := Option.some.inj done
      obtain rfl : s.mem.allocPlayer.1 = r := congrArg Prod.fst same
      obtain rfl : s.mem.allocPlayer.2 = m := congrArg Prod.snd same
      exact .alloc
  | prepare now sessionID p =>
      cases done
      exact .prepare
  | emplace sessionID p =>
      dsimp only [Frame.act, JoinProc.act, exec] at done
      split at done
      · cases done
        refine .calm (Calm.refl s) (fun q => Nat.add_zero _) (fun _ => rfl) ?_
        intro g member
        rw [List.mem_singleton.mp member]
        trivial
      · rename_i absent
        cases done
        exact .publish (Option.not_isSome_iff_eq_none.mp absent)
  | free p =>
      cases done
      exact .discard

/-- A thread that found nobody, or nothing to look for, is done with its use. -/
theorem Does.ended {f : Frame} (light : ∀ q, f.fresh q = 0 ∧ f.holds q = 0) (use : Use) :
    Does s f use.ended s.mem := by
  refine .goesOn (Calm.refl s) light ?_
  cases use with
  | recv env fuel packet =>
      intro g member
      cases member
  | complete found =>
      intro g member
      rw [List.mem_singleton.mp member]
      exact ⟨fun _ => ⟨rfl, rfl⟩, trivial⟩

theorem does_worker {r : (Frame.act .worker).α}
    (done : exec (Frame.act .worker).op c s.mem = some (r, m)) :
    Does s .worker ((Frame.act .worker).next r) m := by
  cases done
  refine .goesOn (Calm.refl s) (fun _ => ⟨rfl, rfl⟩) ?_
  intro g member
  rcases List.mem_cons.mp member with rfl | other
  · cases c.call <;> exact ⟨fun _ => ⟨rfl, rfl⟩, trivial⟩
  · rw [List.mem_singleton.mp other]
    exact ⟨fun _ => ⟨rfl, rfl⟩, trivial⟩

theorem does_redis {r : (Frame.act .redis).α}
    (done : exec (Frame.act .redis).op c s.mem = some (r, m)) :
    Does s .redis ((Frame.act .redis).next r) m := by
  dsimp only [Frame.act, exec] at done
  split at done
  · cases done
    exact Does.ended (fun _ => ⟨rfl, rfl⟩)
      (.complete ⟨0, Vector.replicate 20 0, Vector.replicate 20 0, true⟩)
  · cases done
    refine .goesOn ((Calm.refl s).beside s.mem.accounts s.mem.sector _ s.mem.sent)
      (fun _ => ⟨rfl, rfl⟩) ?_
    intro g member
    rw [List.mem_singleton.mp member]
    exact ⟨fun _ => ⟨rfl, rfl⟩, trivial⟩

theorem does_acquire {sessionID : UINT64} {use : Use} {r : (Frame.act (.acquire sessionID use)).α}
    (done : exec (Frame.act (.acquire sessionID use)).op c s.mem = some (r, m)) :
    Does s (.acquire sessionID use) ((Frame.act (.acquire sessionID use)).next r) m := by
  dsimp only [Frame.act, exec] at done
  split at done
  · cases done
    exact Does.ended (fun _ => ⟨rfl, rfl⟩) use
  · rename_i p joined
    cases done
    exact .acquire joined

/-- The player that was acquired is published, whatever the use goes on to. -/
theorem does_acquired {sessionID : UINT64} {use : Use} {p : PlayerPtr}
    {r : (Frame.act (.acquired sessionID use p)).α} (fits : (Frame.acquired sessionID use p).Fits s)
    (done : exec (Frame.act (.acquired sessionID use p)).op c s.mem = some (r, m)) :
    Does s (.acquired sessionID use p) ((Frame.act (.acquired sessionID use p)).next r) m := by
  obtain ⟨-, rfl⟩ := exec_load done
  obtain ⟨published, session⟩ := fits
  cases use with
  | recv env fuel packet =>
      cases r with
      | false =>
          refine .calm (Calm.refl s) (fun _ => rfl) (fun q => ?_) ?_
          · exact (Nat.zero_add _).trans (Nat.add_zero _)
          · intro g member
            rcases List.mem_cons.mp member with rfl | other
            · exact published
            · rw [List.mem_singleton.mp other]
              exact published
      | true =>
          refine .calm (Calm.refl s) (fun _ => rfl) (fun q => Nat.add_zero _) ?_
          intro g member
          rw [List.mem_singleton.mp member]
          exact published
  | complete found =>
      cases r with
      | false =>
          refine .calm (Calm.refl s) (fun _ => rfl) (fun q => Nat.add_zero _) ?_
          intro g member
          rw [List.mem_singleton.mp member]
          exact ⟨published, session⟩
      | true =>
          refine .calm (Calm.refl s) (fun _ => rfl) (fun q => Nat.add_zero _) ?_
          intro g member
          rcases List.mem_cons.mp member with rfl | other
          · exact published
          · rw [List.mem_singleton.mp other]
            trivial

theorem does_erase {sessionID : UINT64} {r : (Frame.act (.erase sessionID)).α}
    (done : exec (Frame.act (.erase sessionID)).op c s.mem = some (r, m)) :
    Does s (.erase sessionID) ((Frame.act (.erase sessionID)).next r) m := by
  dsimp only [Frame.act, exec] at done
  split at done
  · cases done
    refine .goesOn (Calm.refl s) (fun _ => ⟨rfl, rfl⟩) ?_
    intro g member
    cases member
  · rename_i p joined
    cases done
    exact .erase joined

/-- What any place does. -/
theorem Frame.does {f : Frame} (fits : f.Fits s) {r : f.act.α}
    (done : exec f.act.op c s.mem = some (r, m)) : Does s f (f.act.next r) m := by
  cases f with
  | worker => exact does_worker done
  | redis => exact does_redis done
  | acquire sessionID use => exact does_acquire done
  | acquired sessionID use p => exact does_acquired fits done
  | release p =>
      cases done
      dsimp only [Frame.act]
      split
      · exact .last (by omega)
      · exact .release (by omega)
  | free p => exact fits.elim
  | join pc => exact JoinProc.does done
  | erase sessionID => exact does_erase done
  | leave sessionID p pc => exact LeaveProc.does fits done
  | complete sessionID p found pc => exact CompleteLogin.does fits done
  | recv sessionID p env fuel packet =>
      have visits : Frame.Visits p (.recv sessionID p env fuel packet) := rfl
      exact visits.does fits done
  | login sessionID p packet pc =>
      have visits : Frame.Visits p (.login sessionID p packet pc) := rfl
      exact visits.does fits done
  | move p req pc =>
      exact Frame.Visits.does (show Frame.Visits p (.move p req pc) from rfl) fits done
  | chat p pc =>
      exact Frame.Visits.does (show Frame.Visits p (.chat p pc) from rfl) fits done
  | fault => cases done

/-! ## What a step keeps -/

section Step

variable {t : Nat} {f : Frame} {rest fs : List Frame}
  (owned : Owned s) (here : s.threads[t]? = some (f :: rest))

/-- The state after a step. -/
def after (s : Conf Frame ChatServer) (t : Nat) (fs rest : List Frame) (m : ChatServer) :
    Conf Frame ChatServer :=
  ⟨m, s.threads.set t (fs ++ rest)⟩

variable (m fs) in
include here in
theorem tally_after (w : Frame → Nat) :
    (after s t fs rest m).tally w + w f = s.tally w + (fs.map w).sum :=
  Machine.tally_step w here fs m

include owned here in
/-- The places of the state after a step know what they did, if it keeps
published players and writes to no block that another thread has to itself. -/
theorem fits_after (kept : ∀ p, Published s p → Published (after s t fs rest m) p ∧
      (m.player p).sessionID = (s.mem.player p).sessionID ∧
      ((s.mem.player p).closing = true → (m.player p).closing = true))
    (prepared : ∀ p, ¬ Published s p → f.fresh p = 0 → m.player p = s.mem.player p)
    (fits : ∀ g ∈ fs, g.Fits (after s t fs rest m)) :
    ∀ stack ∈ (after s t fs rest m).threads, ∀ g ∈ stack, g.Fits (after s t fs rest m) := by
  refine Machine.forall_frames_step here fits fun stack member g inside => ?_
  obtain ⟨stack', old, inside'⟩ := Machine.exists_of_stayed here member inside
  refine (owned.fits stack' old g inside').mono kept fun sessionID p same => ?_
  subst same
  have fresh : Frame.fresh p (.join (.emplace sessionID p)) = 1 := share_self p
  refine prepared p (not_published_of_fresh old inside' (by rw [fresh]; exact Nat.one_pos)) ?_
  have both := Machine.add_le_tally (Frame.fresh p) here member inside
  have single := owned.single p
  rw [fresh] at both
  split at single <;> omega

include here in
/-- What places knew before the step they still know, if no block that a thread
has to itself is written. -/
theorem fits_next (kept : ∀ p, Published s p → Published (after s t fs rest m) p ∧
      (m.player p).sessionID = (s.mem.player p).sessionID ∧
      ((s.mem.player p).closing = true → (m.player p).closing = true))
    (prepared : ∀ p, ¬ Published s p → m.player p = s.mem.player p)
    (fresh : ∀ p, (fs.map (Frame.fresh p)).sum = f.fresh p) {g : Frame} (member : g ∈ fs)
    (fits : g.Fits s) : g.Fits (after s t fs rest m) := by
  refine fits.mono kept fun sessionID p same => prepared p ?_
  subst same
  -- a place that goes on with a block to itself had it before
  have part : Frame.fresh p (.join (.emplace sessionID p)) ≤ (fs.map (Frame.fresh p)).sum :=
    List.single_le_sum (fun _ _ => Nat.zero_le _) _ (List.mem_map_of_mem member)
  have one : Frame.fresh p (.join (.emplace sessionID p)) = 1 := share_self p
  rw [fresh p, one] at part
  exact not_published_of_fresh (List.mem_of_getElem? here) List.mem_cons_self part

variable (m fs) in
include here in
/-- A step that leaves blocks with whom they are. -/
theorem published_after (pool : m.playerPool = s.mem.playerPool)
    (blocks : m.playerBlocks = s.mem.playerBlocks)
    (fresh : ∀ p, (fs.map (Frame.fresh p)).sum = f.fresh p) :
    (∀ p, Published (after s t fs rest m) p ↔ Published s p) ∧
      ∀ p, (after s t fs rest m).tally (Frame.fresh p) = s.tally (Frame.fresh p) := by
  have same : ∀ p, (after s t fs rest m).tally (Frame.fresh p) = s.tally (Frame.fresh p) := by
    intro p
    have exchanged := tally_after m fs here (Frame.fresh p)
    rw [fresh p] at exchanged
    omega
  refine ⟨fun p => ⟨?_, ?_⟩, same⟩
  · rintro ⟨made, out, alone⟩
    exact ⟨blocks ▸ made, pool ▸ out, same p ▸ alone⟩
  · rintro ⟨made, out, alone⟩
    exact ⟨blocks.symm ▸ made, pool.symm ▸ out, (same p).trans alone⟩

include owned here in
theorem owned_calm (calm : Calm s m) (fresh : ∀ p, (fs.map (Frame.fresh p)).sum = f.fresh p)
    (holds : ∀ p, (fs.map (Frame.holds p)).sum = f.holds p) (fits : ∀ g ∈ fs, g.Fits s) :
    Owned (after s t fs rest m) := by
  obtain ⟨published, sameFresh⟩ := published_after m fs here calm.pool calm.blocks fresh
  have sameHolds : ∀ p, (after s t fs rest m).tally (Frame.holds p) = s.tally (Frame.holds p) := by
    intro p
    have exchanged := tally_after m fs here (Frame.holds p)
    rw [holds p] at exchanged
    omega
  have kept : ∀ p, Published s p → Published (after s t fs rest m) p ∧
      (m.player p).sessionID = (s.mem.player p).sessionID ∧
      ((s.mem.player p).closing = true → (m.player p).closing = true) :=
    fun p pub =>
      ⟨(published p).mpr pub, calm.session p, fun closes => (calm.closing p).trans closes⟩
  refine ⟨?_, ?_, ?_, ?_, ?_⟩
  · intro p
    show m.playerPool.count p + _ ≤ if p < m.playerBlocks then 1 else 0
    rw [calm.pool, calm.blocks, sameFresh p]
    exact owned.single p
  · intro sessionID p joined
    have before : s.mem.players sessionID = some p := calm.players ▸ joined
    obtain ⟨pub, session, closing⟩ := owned.mapped before
    exact ⟨(published p).mpr pub, (calm.session p).trans session, (calm.closing p).trans closing⟩
  · intro p pub opened
    show m.players (m.player p).sessionID = some p
    rw [calm.players, calm.session]
    exact owned.opens ((published p).mp pub) ((calm.closing p).symm.trans opened)
  · intro p pub
    show (m.player p).ref = _
    rw [calm.ref, sameHolds p]
    exact owned.counted ((published p).mp pub)
  · exact fits_after owned here kept (fun p unpublished _ => calm.others p unpublished)
      fun g member => fits_next here kept calm.others fresh member (fits g member)

include owned here in
/-- A step that takes or drops one reference to a player. -/
theorem owned_recount {p : PlayerPtr} (pub : Published s p) {g : Player → Player}
    (session : (g (s.mem.player p)).sessionID = (s.mem.player p).sessionID)
    (closing : (g (s.mem.player p)).closing = (s.mem.player p).closing)
    (fresh : ∀ q, (fs.map (Frame.fresh q)).sum = f.fresh q)
    (holds : ∀ q, q ≠ p → (fs.map (Frame.holds q)).sum = f.holds q)
    (ref : (g (s.mem.player p)).ref + f.holds p =
      (s.mem.player p).ref + (fs.map (Frame.holds p)).sum) (fits : ∀ h ∈ fs, h.Fits s) :
    Owned (after s t fs rest (s.mem.updatePlayer p g)) := by
  obtain ⟨published, sameFresh⟩ := published_after (s.mem.updatePlayer p g) fs here
    rfl rfl fresh
  have self := ChatServer.player_updatePlayer_self s.mem p g
  have others := fun {q : PlayerPtr} (different : q ≠ p) =>
    ChatServer.player_updatePlayer_of_ne s.mem different g
  have sessions : ∀ q, ((s.mem.updatePlayer p g).player q).sessionID =
      (s.mem.player q).sessionID := by
    intro q
    rcases eq_or_ne q p with rfl | different
    · rw [self, session]
    · rw [others different]
  have closings : ∀ q, ((s.mem.updatePlayer p g).player q).closing =
      (s.mem.player q).closing := by
    intro q
    rcases eq_or_ne q p with rfl | different
    · rw [self, closing]
    · rw [others different]
  have privates : ∀ q, ¬ Published s q → (s.mem.updatePlayer p g).player q = s.mem.player q := by
    intro q unpublished
    refine others ?_
    rintro rfl
    exact unpublished pub
  have kept : ∀ q, Published s q →
      Published (after s t fs rest (s.mem.updatePlayer p g)) q ∧
      ((s.mem.updatePlayer p g).player q).sessionID = (s.mem.player q).sessionID ∧
      ((s.mem.player q).closing = true →
        ((s.mem.updatePlayer p g).player q).closing = true) :=
    fun q pub => ⟨(published q).mpr pub, sessions q, fun closes => (closings q).trans closes⟩
  refine ⟨?_, ?_, ?_, ?_, ?_⟩
  · intro q
    rw [sameFresh q]
    exact owned.single q
  · intro sessionID q joined
    have before : s.mem.players sessionID = some q := joined
    obtain ⟨pub, session, closing⟩ := owned.mapped before
    exact ⟨(published q).mpr pub, (sessions q).trans session, (closings q).trans closing⟩
  · intro q pub opened
    show s.mem.players ((s.mem.updatePlayer p g).player q).sessionID = some q
    rw [sessions]
    exact owned.opens ((published q).mp pub) ((closings q).symm.trans opened)
  · intro q pub
    have before := owned.counted ((published q).mp pub)
    have exchanged := tally_after (s.mem.updatePlayer p g) fs here (Frame.holds q)
    show ((s.mem.updatePlayer p g).player q).ref = _
    rcases eq_or_ne q p with rfl | different
    · rw [self]
      omega
    · rw [others different, before]
      have same := holds q different
      omega
  · exact fits_after owned here kept (fun q unpublished _ => privates q unpublished)
      fun h member => fits_next here kept privates fresh member (fits h member)

include owned here in
/-- A step on a block that nobody else can reach. -/
theorem owned_private (published : ∀ q, Published (after s t fs rest m) q ↔ Published s q)
    (single : ∀ q : Nat, m.playerPool.count q + (after s t fs rest m).tally (Frame.fresh q) ≤
      if q < m.playerBlocks then 1 else 0)
    (players : m.players = s.mem.players)
    (same : ∀ q, Published s q ∨ f.fresh q = 0 → m.player q = s.mem.player q)
    (holds : ∀ q, (fs.map (Frame.holds q)).sum = f.holds q)
    (fits : ∀ g ∈ fs, g.Fits (after s t fs rest m)) : Owned (after s t fs rest m) := by
  refine ⟨single, ?_, ?_, ?_, ?_⟩
  · intro sessionID q joined
    have before : s.mem.players sessionID = some q := players ▸ joined
    obtain ⟨pub, session, closing⟩ := owned.mapped before
    show _ ∧ (m.player q).sessionID = _ ∧ (m.player q).closing = _
    rw [same q (Or.inl pub)]
    exact ⟨(published q).mpr pub, session, closing⟩
  · intro q pub opened
    have pub' := (published q).mp pub
    change (m.player q).closing = false at opened
    show m.players (m.player q).sessionID = some q
    rw [same q (Or.inl pub')] at opened ⊢
    rw [players]
    exact owned.opens pub' opened
  · intro q pub
    have pub' := (published q).mp pub
    have exchanged := tally_after m fs here (Frame.holds q)
    rw [holds q] at exchanged
    have before := owned.counted pub'
    show (m.player q).ref = _
    rw [same q (Or.inl pub')]
    omega
  · refine fits_after owned here ?_ (fun q _ light => same q (Or.inr light)) fits
    intro q pub
    rw [same q (Or.inl pub)]
    exact ⟨(published q).mpr pub, rfl, fun closes => closes⟩

/-- A block comes from the pool, or is a new one. -/
theorem allocPlayer_cases {s m : ChatServer} {p : Nat} (taken : s.allocPlayer = (p, m)) :
    m.players = s.players ∧ m.player = s.player ∧
      ((m.playerBlocks = s.playerBlocks ∧
          ∀ q : Nat, m.playerPool.count q + share p q = s.playerPool.count q) ∨
        (p = s.playerBlocks ∧ m.playerBlocks = s.playerBlocks + 1 ∧
          ∀ q : Nat, m.playerPool.count q = s.playerPool.count q)) := by
  unfold ChatServer.allocPlayer at taken
  cases pool : s.playerPool with
  | cons q rest =>
      rw [pool] at taken
      cases taken
      exact ⟨rfl, rfl, Or.inl ⟨rfl, fun k => (count_cons_share p k rest).symm⟩⟩
  | nil =>
      rw [pool] at taken
      cases taken
      exact ⟨rfl, rfl, Or.inr ⟨rfl, rfl, fun k => congrArg (List.count k) pool.symm ▸ rfl⟩⟩

section Alloc

variable {now sessionID : UINT64} {p : Nat} (alloc : f = .join (.alloc now sessionID))
  (taken : s.mem.allocPlayer = (p, m))

include here alloc in
theorem fresh_alloc (q : Nat) :
    (after s t [.join (.prepare now sessionID p)] rest m).tally (Frame.fresh q) =
      s.tally (Frame.fresh q) + share p q := by
  subst alloc
  have exchanged := tally_after m [.join (.prepare now sessionID p)] here (Frame.fresh q)
  simpa using exchanged

include here alloc taken in
theorem published_alloc (q : Nat) :
    Published (after s t [.join (.prepare now sessionID p)] rest m) q ↔ Published s q := by
  rw [published_iff, published_iff, fresh_alloc here alloc q]
  show q < m.playerBlocks ∧ m.playerPool.count q + _ = 0 ↔ _
  obtain ⟨-, -, ⟨blocks, counts⟩ | ⟨rfl, blocks, counts⟩⟩ := allocPlayer_cases taken
  · have count := counts q
    rw [blocks]
    omega
  · have count := counts q
    rw [blocks, count]
    rcases eq_or_ne s.mem.playerBlocks q with rfl | other
    · rw [share_self]
      omega
    · rw [share_of_ne other]
      omega

include owned here alloc taken in
theorem owned_alloc : Owned (after s t [.join (.prepare now sessionID p)] rest m) := by
  obtain ⟨players, player, counts⟩ := allocPlayer_cases taken
  refine owned_private owned here (published_alloc here alloc taken) ?_ players
    (fun q _ => congrFun player q) (fun _ => alloc ▸ rfl) ?_
  · intro q
    have single := owned.single q
    rw [fresh_alloc here alloc q]
    rcases counts with ⟨blocks, counts⟩ | ⟨rfl, blocks, counts⟩
    · have count := counts q
      rw [blocks]
      split at single <;> split <;> omega
    · have count := counts q
      rw [blocks, count]
      rcases eq_or_ne s.mem.playerBlocks q with rfl | other
      · rw [share_self]
        split at single <;> split <;> omega
      · rw [share_of_ne other]
        split at single <;> split <;> omega
  · intro g member
    rw [List.mem_singleton.mp member]
    trivial

end Alloc

include owned here in
theorem owned_prepare {now sessionID : UINT64} {p : Nat}
    (prepare : f = .join (.prepare now sessionID p)) :
    Owned (after s t [.join (.emplace sessionID p)] rest
      (s.mem.updatePlayer p fun _ => Player.joining now sessionID)) := by
  subst prepare
  obtain ⟨published, fresh⟩ := published_after
    (s.mem.updatePlayer p fun _ => Player.joining now sessionID) [.join (.emplace sessionID p)]
    here rfl rfl fun q => Nat.add_zero _
  have own : Frame.fresh p (.join (.prepare now sessionID p)) = 1 := share_self p
  have unpublished := not_published_of_fresh (p := p) (List.mem_of_getElem? here)
    List.mem_cons_self (by rw [own]; exact Nat.one_pos)
  refine owned_private owned here published ?_ rfl ?_ (fun _ => rfl) ?_
  · intro q
    rw [fresh q]
    exact owned.single q
  · intro q reach
    refine ChatServer.player_updatePlayer_of_ne _ ?_ _
    rintro rfl
    rcases reach with pub | light
    · exact unpublished pub
    · rw [own] at light
      cases light
  · intro g member
    rw [List.mem_singleton.mp member]
    exact ⟨now, ChatServer.player_updatePlayer_self s.mem p fun _ => Player.joining now sessionID⟩

section Discard

variable {p : Nat} (discard : f = .join (.free p))

include here discard in
/-- The block goes from the thread that had it to the pool. -/
theorem count_discard (q : Nat) : (p :: s.mem.playerPool).count q +
    (after s t [] rest { s.mem with playerPool := p :: s.mem.playerPool }).tally (Frame.fresh q) =
    s.mem.playerPool.count q + s.tally (Frame.fresh q) := by
  subst discard
  have exchanged : (after s t [] rest
      { s.mem with playerPool := p :: s.mem.playerPool }).tally (Frame.fresh q) + share p q =
      s.tally (Frame.fresh q) := tally_after _ _ here (Frame.fresh q)
  have counted : (p :: s.mem.playerPool).count q = s.mem.playerPool.count q + share p q :=
    count_cons_share p q s.mem.playerPool
  omega

include here discard in
theorem published_discard (q : Nat) :
    Published (after s t [] rest { s.mem with playerPool := p :: s.mem.playerPool }) q ↔
      Published s q := by
  rw [published_iff, published_iff]
  show q < s.mem.playerBlocks ∧ (p :: s.mem.playerPool).count q + _ = 0 ↔ _
  rw [count_discard here discard q]

include owned here discard in
theorem owned_discard :
    Owned (after s t [] rest { s.mem with playerPool := p :: s.mem.playerPool }) := by
  refine owned_private owned here (published_discard here discard) ?_ rfl (fun _ _ => rfl)
    (fun _ => discard ▸ rfl) ?_
  · intro q
    show (p :: s.mem.playerPool).count q + _ ≤ _
    rw [count_discard here discard q]
    exact owned.single q
  · intro g member
    cases member

end Discard

section Publish

variable {sessionID : UINT64} {p : Nat} (publish : f = .join (.emplace sessionID p))

include here publish in
theorem fresh_publish (q : Nat) :
    (after s t [] rest (mapped s.mem sessionID p)).tally (Frame.fresh q) + share p q =
      s.tally (Frame.fresh q) := by
  subst publish
  exact tally_after _ [] here (Frame.fresh q)

include owned here publish in
/-- A `JoinProc` gives its block away. -/
theorem published_publish (q : Nat) :
    Published (after s t [] rest (mapped s.mem sessionID p)) q ↔ q = p ∨ Published s q := by
  have exchanged := fresh_publish here publish q
  have single := owned.single q
  rw [published_iff, published_iff]
  show q < s.mem.playerBlocks ∧ s.mem.playerPool.count q + _ = 0 ↔ _
  rcases eq_or_ne q p with rfl | different
  · rw [share_self] at exchanged
    split at single
    · rename_i made
      refine ⟨fun _ => Or.inl rfl, fun _ => ⟨made, by omega⟩⟩
    · omega
  · rw [share_of_ne different.symm, Nat.add_zero] at exchanged
    rw [exchanged]
    exact ⟨Or.inr, fun either => either.resolve_left different⟩

include owned here publish in
theorem owned_publish (absent : s.mem.players sessionID = none) :
    Owned (after s t [] rest (mapped s.mem sessionID p)) := by
  have published := published_publish owned here publish
  have fresh := fresh_publish here publish
  subst publish
  have stack := List.mem_of_getElem? here
  obtain ⟨now, prepared⟩ := owned.fits _ stack _ List.mem_cons_self
  have own : Frame.fresh p (.join (.emplace sessionID p)) = 1 := share_self p
  have unpublished : ¬ Published s p := not_published_of_fresh stack List.mem_cons_self
    (by rw [own]; exact Nat.one_pos)
  have holds : ∀ q : Nat, (after s t [] rest (mapped s.mem sessionID p)).tally
      (Frame.holds q) = s.tally (Frame.holds q) := fun q =>
    tally_after _ [] here (Frame.holds q)
  have unheld : s.tally (Frame.holds p) = 0 := by
    refine Conf.tally_eq_zero fun stack' member g inside => ?_
    by_contra held
    exact unpublished ((owned.fits stack' member g inside).published_of_holds
      (Nat.pos_of_ne_zero held))
  refine ⟨?_, ?_, ?_, ?_, ?_⟩
  · intro q
    have before := owned.single q
    have exchanged := fresh q
    show s.mem.playerPool.count q + _ ≤ if q < s.mem.playerBlocks then 1 else 0
    omega
  · intro other q joined
    change Function.update s.mem.players sessionID (some p) other = some q at joined
    show _ ∧ (s.mem.player q).sessionID = other ∧ (s.mem.player q).closing = false
    rcases eq_or_ne other sessionID with rfl | elsewhere
    · rw [Function.update_self] at joined
      cases joined
      rw [prepared]
      exact ⟨(published p).mpr (Or.inl rfl), rfl, rfl⟩
    · rw [Function.update_of_ne elsewhere] at joined
      obtain ⟨pub, session, closing⟩ := owned.mapped joined
      exact ⟨(published q).mpr (Or.inr pub), session, closing⟩
  · intro q pub opened
    change (s.mem.player q).closing = false at opened
    show Function.update s.mem.players sessionID (some p) (s.mem.player q).sessionID = some q
    rcases (published q).mp pub with rfl | before
    · rw [prepared]
      exact Function.update_self ..
    · have joined := owned.opens before opened
      rw [Function.update_of_ne]
      · exact joined
      · intro same
        rw [same, absent] at joined
        cases joined
  · intro q pub
    show (s.mem.player q).ref = _
    rw [holds q]
    rcases (published q).mp pub with rfl | before
    · rw [unheld, prepared]
      rfl
    · exact owned.counted before
  · exact fits_after owned here
      (fun q pub => ⟨(published q).mpr (Or.inr pub), rfl, fun closes => closes⟩)
      (fun _ _ _ => rfl) (fun g member => by cases member)

end Publish

theorem player_erased_self (k : ChatServer) (sessionID : UINT64) (p : PlayerPtr) :
    (erased k sessionID p).player p =
      { k.player p with ref := (k.player p).ref + 1, closing := true } :=
  Function.update_self ..

theorem player_erased_of_ne {k : ChatServer} {sessionID : UINT64} {p q : PlayerPtr}
    (different : q ≠ p) : (erased k sessionID p).player q = k.player q :=
  Function.update_of_ne different ..

theorem sessionID_erased (k : ChatServer) (sessionID : UINT64) (p q : PlayerPtr) :
    ((erased k sessionID p).player q).sessionID = (k.player q).sessionID := by
  rcases eq_or_ne q p with rfl | different
  · rw [player_erased_self]
  · rw [player_erased_of_ne different]

include owned here in
/-- A `LeaveProc` takes a session out of the map. -/
theorem owned_erase {sessionID : UINT64} {p : Nat} (erase : f = .erase sessionID)
    (joined : s.mem.players sessionID = some p) :
    Owned (after s t [.leave sessionID p .isLogined, .release p] rest
      (erased s.mem sessionID p)) := by
  subst erase
  obtain ⟨pub, session, -⟩ := owned.mapped joined
  obtain ⟨published, fresh⟩ := published_after (erased s.mem sessionID p)
    [.leave sessionID p .isLogined, .release p] here rfl rfl fun q => rfl
  have holds : ∀ q : Nat, (after s t [.leave sessionID p .isLogined, .release p] rest
      (erased s.mem sessionID p)).tally (Frame.holds q) =
      s.tally (Frame.holds q) + share p q := by
    intro q
    have exchanged := tally_after (erased s.mem sessionID p)
      [.leave sessionID p .isLogined, .release p] here (Frame.holds q)
    simpa using exchanged
  have players : (erased s.mem sessionID p).players =
      Function.update s.mem.players sessionID none := rfl
  refine ⟨?_, ?_, ?_, ?_, ?_⟩
  · intro q
    rw [fresh q]
    exact owned.single q
  · intro other q mapped
    change (erased s.mem sessionID p).players other = some q at mapped
    rw [players] at mapped
    rcases eq_or_ne other sessionID with rfl | elsewhere
    · rw [Function.update_self] at mapped
      cases mapped
    · rw [Function.update_of_ne elsewhere] at mapped
      obtain ⟨pub', session', closing⟩ := owned.mapped mapped
      have different : q ≠ p := by
        rintro rfl
        exact elsewhere (session'.symm.trans session)
      refine ⟨(published q).mpr pub', (sessionID_erased s.mem sessionID p q).trans session', ?_⟩
      exact (congrArg Player.closing (player_erased_of_ne different)).trans closing
  · intro q pub' opened
    change ((erased s.mem sessionID p).player q).closing = false at opened
    show (erased s.mem sessionID p).players ((erased s.mem sessionID p).player q).sessionID = some q
    rcases eq_or_ne q p with rfl | different
    · rw [player_erased_self] at opened
      cases opened
    · rw [player_erased_of_ne different] at opened ⊢
      have mapped := owned.opens ((published q).mp pub') opened
      rw [players, Function.update_of_ne]
      · exact mapped
      · intro same
        rw [same, joined] at mapped
        exact different (Option.some.inj mapped).symm
  · intro q pub'
    have before := owned.counted ((published q).mp pub')
    show ((erased s.mem sessionID p).player q).ref = _
    rw [holds q]
    rcases eq_or_ne q p with rfl | different
    · rw [player_erased_self, share_self]
      dsimp only
      omega
    · rw [player_erased_of_ne different, share_of_ne different.symm]
      exact before
  · have kept : ∀ q : Nat, Published s q →
        Published (after s t [.leave sessionID p .isLogined, .release p] rest
          (erased s.mem sessionID p)) q ∧
        ((erased s.mem sessionID p).player q).sessionID = (s.mem.player q).sessionID ∧
        ((s.mem.player q).closing = true →
          ((erased s.mem sessionID p).player q).closing = true) := by
      intro q pub'
      refine ⟨(published q).mpr pub', sessionID_erased s.mem sessionID p q, fun closes => ?_⟩
      rcases eq_or_ne q p with rfl | different
      · rw [player_erased_self]
      · rw [player_erased_of_ne different]
        exact closes
    refine fits_after owned here kept ?_ ?_
    · intro q unpublished _
      refine player_erased_of_ne ?_
      rintro rfl
      exact unpublished pub
    · intro g member
      rcases List.mem_cons.mp member with rfl | last
      · exact ⟨(published p).mpr pub, (sessionID_erased s.mem sessionID p p).trans session,
          congrArg Player.closing (player_erased_self s.mem sessionID p)⟩
      · rw [List.mem_singleton.mp last]
        exact (published p).mpr pub

include owned here in
/-- Only `JoinProc` publishes a player, and nobody takes one back. -/
theorem published_does (does : Does s f fs m) (q : Nat) :
    Published (after s t fs rest m) q ↔
      (∃ sessionID, f = .join (.emplace sessionID q) ∧ fs = []) ∨ Published s q := by
  have stays : ∀ {fs : List Frame} {m : ChatServer}, m.playerPool = s.mem.playerPool →
      m.playerBlocks = s.mem.playerBlocks → (∀ p, (fs.map (Frame.fresh p)).sum = f.fresh p) →
      ((∃ sessionID, f = .join (.emplace sessionID q) ∧ fs = []) → False) →
      (Published (after s t fs rest m) q ↔
        (∃ sessionID, f = .join (.emplace sessionID q) ∧ fs = []) ∨ Published s q) := by
    intro fs m pool blocks fresh other
    rw [(published_after _ _ here pool blocks fresh).1 q]
    exact ⟨Or.inr, fun either => either.resolve_left other⟩
  have fits := owned.fits _ (List.mem_of_getElem? here) _ List.mem_cons_self
  cases does with
  | calm calm fresh holds _ =>
      refine stays calm.pool calm.blocks fresh ?_
      rintro ⟨sessionID, rfl, rfl⟩
      have own := fresh q
      rw [show Frame.fresh q (.join (.emplace sessionID q)) = 1 from share_self q] at own
      cases own
  | acquire joined => exact stays rfl rfl (fun _ => rfl) (by simp)
  | release kept => exact stays rfl rfl (fun _ => rfl) (by simp)
  | @last p last =>
      have counted := owned.counted fits
      have own := Conf.le_tally (w := Frame.holds p) (List.mem_of_getElem? here)
        List.mem_cons_self
      have one : Frame.holds p (.release p) = 1 := share_self p
      omega
  | alloc =>
      rw [published_alloc here rfl Prod.mk.eta.symm q]
      simp
  | prepare => exact stays rfl rfl (fun _ => Nat.add_zero _) (by simp)
  | publish absent =>
      rw [published_publish owned here rfl q]
      simp [eq_comm]
  | discard =>
      rw [published_discard here rfl q]
      simp
  | erase joined => exact stays rfl rfl (fun _ => rfl) (by simp)

end Step

theorem owned_does {t : Nat} {f : Frame} {rest fs : List Frame} (owned : Owned s)
    (here : s.threads[t]? = some (f :: rest)) (does : Does s f fs m) :
    Owned (after s t fs rest m) := by
  have fits := owned.fits _ (List.mem_of_getElem? here) _ List.mem_cons_self
  cases does with
  | calm calm fresh holds fits => exact owned_calm owned here calm fresh holds fits
  | @acquire sessionID use p joined =>
      obtain ⟨pub, session, -⟩ := owned.mapped joined
      refine owned_recount owned here pub (g := fun q => { q with ref := q.ref + 1 }) rfl rfl
        (fun _ => rfl) ?_ ?_ ?_
      · intro q different
        exact (Nat.add_zero _).trans (share_of_ne different.symm)
      · show (s.mem.player p).ref + 1 + 0 = (s.mem.player p).ref + ((share p p + 0 : Nat) : Int)
        rw [share_self]
        push_cast
        omega
      · intro g member
        rw [List.mem_singleton.mp member]
        exact ⟨pub, session⟩
  | @release p kept =>
      refine owned_recount owned here fits (g := fun q => { q with ref := q.ref - 1 }) rfl rfl
        (fun _ => rfl) ?_ ?_ ?_
      · intro q different
        exact (share_of_ne different.symm).symm
      · show (s.mem.player p).ref - 1 + ((share p p : Nat) : Int) = (s.mem.player p).ref + 0
        rw [share_self]
        exact (Int.sub_add_cancel ..).trans (Int.add_zero _).symm
      · intro g member
        cases member
  | @last p last =>
      -- the map's own reference is never dropped
      have counted := owned.counted fits
      have own := Conf.le_tally (w := Frame.holds p) (List.mem_of_getElem? here)
        List.mem_cons_self
      have one : Frame.holds p (.release p) = 1 := share_self p
      omega
  | alloc => exact owned_alloc owned here rfl rfl
  | prepare => exact owned_prepare owned here rfl
  | publish absent => exact owned_publish owned here rfl absent
  | discard => exact owned_discard owned here rfl
  | erase joined => exact owned_erase owned here rfl joined

/-- Every step keeps the invariant. -/
theorem owned_step {t : Nat} (owned : Owned s) (step : chatServer.step s t c = some s') :
    Owned s' := by
  obtain ⟨f, rest, r, m, here, done, rfl⟩ := chat_step_cases step
  have fits := owned.fits _ (List.mem_of_getElem? here) _ List.mem_cons_self
  exact owned_does owned here (Frame.does fits done)

theorem mem_boot {redis workers : Nat} {stack : List Frame}
    (member : stack ∈ (boot redis workers).threads) : stack = [.redis] ∨ stack = [.worker] := by
  rcases List.mem_append.mp member with first | last
  · exact Or.inl (List.mem_replicate.mp first).2
  · exact Or.inr (List.mem_replicate.mp last).2

theorem tally_boot {w : Frame → Nat} (redis workers : Nat) (light : w .worker = 0) :
    (boot redis workers).tally w = redis * w .redis := by
  simp [Conf.tally, boot, light]

theorem owned_boot (redis workers : Nat) : Owned (boot redis workers) where
  single := by
    intro p
    rw [tally_boot redis workers rfl]
    exact Nat.zero_le _
  mapped := by
    intro sessionID p joined
    cases joined
  opens := by
    rintro p ⟨made, -, -⟩
    cases made
  counted := by
    rintro p ⟨made, -, -⟩
    cases made
  fits := by
    intro stack member f inside
    rcases mem_boot member with rfl | rfl <;>
      · rw [List.mem_singleton.mp inside]
        trivial

/-- The invariant holds in every state that is reached. -/
theorem owned_steps {redis workers : Nat} {guard : Conf Frame ChatServer → Nat → Choice → Prop}
    (run : chatServer.Steps guard (boot redis workers) s) : Owned s :=
  run.invariant (owned_boot redis workers) fun _ _ _ _ owned _ step => owned_step owned step

/-! ## One `RedisThread` -/

theorem Frame.Visits.completes {p : PlayerPtr} {f : Frame} (visits : f.Visits p) :
    f.completes = 0 := by
  cases f with
  | recv | login | move | chat | fault => rfl
  | _ => cases visits

/-- `RedisThread` stays one thread. -/
theorem Frame.completes_next {f : Frame} {r : f.act.α}
    (done : exec f.act.op c s.mem = some (r, m)) :
    ((f.act.next r).map Frame.completes).sum = f.completes := by
  have visiting : ∀ {p : PlayerPtr}, f.Visits p →
      ((f.act.next r).map Frame.completes).sum = f.completes := by
    intro p visits
    rw [visits.completes]
    refine List.sum_eq_zero fun k member => ?_
    obtain ⟨g, inside, rfl⟩ := List.mem_map.mp member
    exact (visits.next r g inside).completes
  cases f with
  | worker =>
      cases done
      cases c.call <;> rfl
  | redis =>
      dsimp only [Frame.act, exec] at done
      split at done <;> cases done <;> rfl
  | acquire sessionID use =>
      cases r <;> cases use <;> rfl
  | acquired sessionID use p =>
      cases r <;> cases use <;> rfl
  | release p =>
      dsimp only [Frame.act]
      split <;> rfl
  | free p => rfl
  | join pc =>
      cases pc with
      | emplace sessionID p => cases r <;> rfl
      | _ => rfl
  | erase sessionID => cases r <;> rfl
  | leave sessionID p pc =>
      cases pc with
      | isLogined => cases r <;> rfl
      | accountNo | sectorY =>
          dsimp only [Frame.act, LeaveProc.act]
          split <;> rfl
      | _ => rfl
  | complete sessionID p found pc =>
      cases pc with
      | sessionID =>
          dsimp only [Frame.act, CompleteLogin.act]
          split <;> rfl
      | closing =>
          cases r
          · dsimp only [Frame.act, CompleteLogin.act]
            split <;> rfl
          · rfl
      | id i | nick i =>
          dsimp only [Frame.act, CompleteLogin.act]
          split
          · rfl
          · split <;> rfl
      | invalid => cases done
      | _ => rfl
  | recv sessionID p env fuel packet => exact visiting (p := p) rfl
  | login sessionID p packet pc => exact visiting (p := p) rfl
  | move p req pc => exact visiting (p := p) rfl
  | chat p pc => exact visiting (p := p) rfl
  | fault => cases done

/-- A step ends no `CompleteLogin` without going back to `RedisThread`. -/
theorem completes_after {t : Nat} {f : Frame} {rest : List Frame} {r : f.act.α}
    (here : s.threads[t]? = some (f :: rest)) (done : exec f.act.op c s.mem = some (r, m)) :
    (after s t (f.act.next r) rest m).tally Frame.completes = s.tally Frame.completes := by
  have exchanged := tally_after m (f.act.next r) here Frame.completes
  rw [Frame.completes_next done] at exchanged
  exact Nat.add_right_cancel exchanged

/-- While `RedisThread` is in `CompleteLogin`, nobody else is. -/
theorem tally_alone {t : Nat} {f : Frame} {rest : List Frame} {w : Frame → Nat}
    (single : s.tally Frame.completes = 1) (here : s.threads[t]? = some (f :: rest))
    (own : f.completes = 1) (le : ∀ g : Frame, w g ≤ g.completes) (fs : List Frame)
    (m : ChatServer) :
    s.tally w = w f ∧ (after s t fs rest m).tally w = (fs.map w).sum := by
  have redis := tally_after m [] here Frame.completes
  have others := Conf.tally_le (s := after s t [] rest m) le
  have before := tally_after m [] here w
  have now := tally_after m fs here w
  rw [List.map_nil, List.sum_nil] at redis before
  omega

theorem completes_boot (redis workers : Nat) :
    (boot redis workers).tally Frame.completes = redis :=
  (tally_boot redis workers rfl).trans (Nat.mul_one redis)

end ChatThreads

end ChattingServer
