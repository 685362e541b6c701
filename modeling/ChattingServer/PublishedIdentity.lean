import ChattingServer.PlayerOwnership
import ChattingServer.Foundation.Terminated

/-!
# What others see of a login

`CompleteLogin` sets `isLogined`, then `accountNo`, then the characters of `id`
and `nick`; `Res_Chat` and `LeaveProc` look at the same fields.  A `Register`
records beside a run what was inserted, stored, completed and seen.

`races` are the steps at which a reader and `CompleteLogin` meet on one player.
Without them every response carries one completed login, and `LeaveProc` sees
the account that was inserted (`identity_of_run`).
-/

namespace ChattingServer

namespace ChatThreads

/-- What a name says. -/
def textOf (name : Vector WCHAR 20) : List WCHAR := name.toList.takeWhile (· ≠ 0)

/-- Beside a run: the account that was last inserted for a player, the login
whose account was last stored in it, the logins that have been stored as a
whole, what `Res_Chat` made its responses of, and the accounts that `LeaveProc`
saw, with those inserted. -/
structure Register where
  inserted : PlayerPtr → Option INT64
  stored : PlayerPtr → Option Login
  completed : List (PlayerPtr × Login)
  answers : List (PlayerPtr × Player)
  seen : List (INT64 × Option INT64)

def Register.empty : Register := ⟨fun _ => none, fun _ => none, [], [], []⟩

/-- `Res_Chat` has read character `x` of `nick`. -/
def Register.answer (h : Register) (p : PlayerPtr) (account : INT64) (ids nicks : List WCHAR)
    (x : WCHAR) : Register :=
  if nicks.length + 1 < 20 then h
  else { h with answers := (p, readPlayer account ids (nicks ++ [x])) :: h.answers }

def Register.note (_ : Nat) (f : Frame) (_ : List Frame) (r : f.act.α) (h : Register) : Register :=
  match f, r with
  | .complete _ p found .accounts, _ =>
      { h with inserted := Function.update h.inserted p (some found.account) }
  | .complete _ p found .accountNo, _ =>
      { h with stored := Function.update h.stored p (some found) }
  | .complete _ p found (.nick i), _ =>
      if charAt found.nick i = 0 then { h with completed := (p, found) :: h.completed } else h
  | .chat p (.nick _ account ids nicks), x => h.answer p account ids nicks x
  | .leave _ p .accountNo, account => { h with seen := (account, h.inserted p) :: h.seen }
  | _, _ => h

/-! ## Places -/

/-- `CompleteLogin` has inserted its account, and not stored it in the player. -/
@[simp] def Frame.inserting (p : Nat) : Frame → Nat
  | .complete _ q _ .isLogined => share q p
  | .complete _ q _ .accountNo => share q p
  | _ => 0

/-- `CompleteLogin` has set `isLogined`, and stored no account. -/
@[simp] def Frame.flagging (p : Nat) : Frame → Nat
  | .complete _ q _ .accountNo => share q p
  | _ => 0

/-- `CompleteLogin` has stored its account, and not all of the names. -/
@[simp] def Frame.copying (p : Nat) : Frame → Nat
  | .complete _ q _ (.id _) => share q p
  | .complete _ q _ (.nick _) => share q p
  | .complete _ q _ .invalid => share q p
  | _ => 0

/-- `CompleteLogin` has yet to store character `i` of `id`. -/
@[simp] def Frame.lacksId (p i : Nat) : Frame → Nat
  | .complete _ q _ (.id j) => if j ≤ i then share q p else 0
  | .complete _ q _ .invalid => share q p
  | _ => 0

@[simp] def Frame.lacksNick (p i : Nat) : Frame → Nat
  | .complete _ q _ (.id _) => share q p
  | .complete _ q _ (.nick j) => if j ≤ i then share q p else 0
  | .complete _ q _ .invalid => share q p
  | _ => 0

/-- `Res_Chat` has read the account of the player, and not all of the names. -/
@[simp] def Frame.reading (p : Nat) : Frame → Nat
  | .chat q (.id ..) => share q p
  | .chat q (.nick ..) => share q p
  | _ => 0

/-- `CompleteLogin` has inserted another account. -/
@[simp] def Frame.insertingOther (p : Nat) (account : INT64) : Frame → Nat
  | .complete _ q found .isLogined => if found.account = account then 0 else share q p
  | .complete _ q found .accountNo => if found.account = account then 0 else share q p
  | _ => 0

/-- The step of the thread reads what a `CompleteLogin` has yet to store, or
stores what a `Res_Chat` is reading. -/
def races (s : Conf Frame ChatServer) (t : Nat) : Bool :=
  match s.top t with
  | some (.chat p (.accountNo _)) =>
      decide ((s.mem.player p).accountNo = 0 ∧ 0 < s.tally (Frame.flagging p))
  | some (.chat p (.id _ _ ids)) => decide (0 < s.tally (Frame.lacksId p ids.length))
  | some (.chat p (.nick _ _ _ nicks)) => decide (0 < s.tally (Frame.lacksNick p nicks.length))
  | some (.complete _ p _ .accountNo) => decide (0 < s.tally (Frame.reading p))
  | some (.leave _ p .accountNo) =>
      decide (0 < s.tally (Frame.insertingOther p (s.mem.player p).accountNo))
  | _ => false

/-! ## What places know -/

/-- What a place knows of the identity of its player. -/
@[simp] def Frame.Knows (s : Conf Frame ChatServer) (h : Register) : Frame → Prop
  | .complete _ p found .isLogined => h.inserted p = some found.account
  | .complete _ p found .accountNo => h.inserted p = some found.account
  | .complete _ p found (.id i) => h.stored p = some found ∧ i < 20 ∧
      Copying 0 i (s.mem.player p).id.toList found.id.toList
  | .complete _ p found (.nick i) => h.stored p = some found ∧ i < 20 ∧
      Matches 0 (s.mem.player p).id.toList found.id.toList ∧
      Copying 0 i (s.mem.player p).nick.toList found.nick.toList
  | .chat p (.accountNo _) => (s.mem.player p).isLogined = true
  | .chat p (.id _ account ids) => ∃ found, h.stored p = some found ∧ account = found.account ∧
      ids.length < 20 ∧ Matches 0 ids found.id.toList
  | .chat p (.nick _ account ids nicks) => ∃ found, h.stored p = some found ∧
      account = found.account ∧ ids.length = 20 ∧ Matches 0 ids found.id.toList ∧
      nicks.length < 20 ∧ Matches 0 nicks found.nick.toList
  | .leave _ p .accountNo => (s.mem.player p).isLogined = true
  | _ => True

/-- The identity of a player, as far as no `CompleteLogin` is at work on it. -/
structure Identity (s : Conf Frame ChatServer) (h : Register) (p : Nat) : Prop where
  fresh : ¬ Published s p → h.stored p = none ∧ h.inserted p = none
  account : ∀ {found}, h.stored p = some found → (s.mem.player p).accountNo = found.account
  unstored : h.stored p = none → (s.mem.player p).accountNo = 0 ∧
    ((s.mem.player p).isLogined = true → 0 < s.tally (Frame.flagging p))
  inserted : s.tally (Frame.inserting p) = 0 → h.inserted p = (h.stored p).map Login.account
  settled : ∀ {found}, h.stored p = some found → s.tally (Frame.copying p) = 0 →
    Matches 0 (s.mem.player p).id.toList found.id.toList ∧
    Matches 0 (s.mem.player p).nick.toList found.nick.toList ∧ (p, found) ∈ h.completed

/-- What has been seen is right. -/
structure Register.Honest (h : Register) : Prop where
  answers : ∀ p x, (p, x) ∈ h.answers → ∃ found, (p, found) ∈ h.completed ∧
    x.accountNo = found.account ∧ textOf x.id = textOf found.id ∧ textOf x.nick = textOf found.nick
  seen : ∀ account inserted, (account, inserted) ∈ h.seen → inserted = some account

structure Identified (s : Conf Frame ChatServer) (h : Register) : Prop where
  owned : Owned s
  single : s.tally Frame.completes = 1
  identity : ∀ p, Identity s h p
  knows : ∀ stack ∈ s.threads, ∀ f ∈ stack, f.Knows s h
  honest : h.Honest

/-! ## What a step leaves alone -/

/-- Nothing that tells who a player is has changed. -/
structure SameFace (x y : Player) : Prop where
  isLogined : x.isLogined = y.isLogined
  accountNo : x.accountNo = y.accountNo
  id : x.id = y.id
  nick : x.nick = y.nick

theorem SameFace.refl (x : Player) : SameFace x x := ⟨rfl, rfl, rfl, rfl⟩

variable {s s' : Conf Frame ChatServer} {m : ChatServer} {c : Choice} {h h' : Register}

theorem sameFace_updatePlayer {p : PlayerPtr} {g : Player → Player}
    (same : SameFace (g (s.mem.player p)) (s.mem.player p)) (q : PlayerPtr) :
    SameFace ((s.mem.updatePlayer p g).player q) (s.mem.player q) := by
  rcases eq_or_ne q p with rfl | different
  · rw [ChatServer.player_updatePlayer_self]
    exact same
  · rw [ChatServer.player_updatePlayer_of_ne _ different]
    exact .refl _

/-- The places of `CompleteLogin` that store something. -/
@[simp] def CompleteLogin.Stores : CompleteLogin → Prop
  | .sessionID => False
  | .closing => False
  | .send _ => False
  | _ => True

/-- The places that may change who a player is. -/
@[simp] def Frame.Writes : Frame → Prop
  | .complete _ _ _ pc => pc.Stores
  | .join (.prepare ..) => True
  | _ => False

/-- The stores of what tells who a player is. -/
@[simp] def Store.Names : Store → Prop
  | .prepare .. => True
  | .isLogined => True
  | .accountNo _ => True
  | .id .. => True
  | .nick .. => True
  | _ => False

@[simp] def Op.Names : {α : Type} → Op α → Prop
  | _, .store _ stored => stored.Names
  | _, _ => False

theorem Store.sameFace {stored : Store} (other : ¬ stored.Names) (x : Player) :
    SameFace (stored.apply x) x := by
  cases stored with
  | time | sectorX | sectorY | closing => exact ⟨rfl, rfl, rfl, rfl⟩
  | _ => exact absurd trivial other

/-- An operation that stores nothing of the kind leaves every player who it was. -/
theorem exec_sameFace {α : Type} {op : Op α} {r : α} (other : ¬ op.Names)
    (done : exec op c s.mem = some (r, m)) (p : PlayerPtr) :
    SameFace (m.player p) (s.mem.player p) := by
  cases op with
  | store q stored =>
      cases done
      exact sameFace_updatePlayer (stored.sameFace other _) p
  | fetchSub q =>
      cases done
      exact sameFace_updatePlayer ⟨rfl, rfl, rfl, rfl⟩ p
  | find sessionID =>
      dsimp only [exec] at done
      split at done <;> cases done
      · exact .refl _
      · exact sameFace_updatePlayer ⟨rfl, rfl, rfl, rfl⟩ p
  | erase sessionID =>
      dsimp only [exec] at done
      split at done <;> cases done
      · exact .refl _
      · exact sameFace_updatePlayer (s := ⟨{ s.mem with players := _ }, s.threads⟩)
          ⟨rfl, rfl, rfl, rfl⟩ p
  | alloc =>
      have same : s.mem.allocPlayer = (r, m) := Option.some.inj done
      exact (allocPlayer_cases same).2.1 ▸ .refl _
  | pushJob sessionID packet =>
      cases done
      unfold ChatServer.enqueueRedis
      split <;> exact .refl _
  | sendLogin sessionID account status =>
      obtain ⟨res, rfl⟩ := exec_sendLogin done
      exact .refl _
  | popJob | emplace | dropAccount =>
      dsimp only [exec] at done
      split at done <;> cases done <;> exact .refl _
  | moveSector q ox oy x y =>
      cases done
      split <;> exact .refl _
  | abort => cases done
  | _ =>
      cases done
      exact .refl _

/-- The places that store nothing of the kind. -/
theorem Frame.not_names {f : Frame} (reads : ¬ f.Writes) : ¬ f.act.op.Names := by
  cases f with
  | join pc =>
      cases pc with
      | prepare now sessionID p => exact absurd trivial reads
      | _ => exact not_false
  | leave sessionID q pc => cases pc <;> exact not_false
  | login sessionID q packet pc => cases pc <;> exact not_false
  | move q req pc => cases pc <;> exact not_false
  | chat q pc => cases pc <;> exact not_false
  | complete sessionID q found pc =>
      cases pc with
      | sessionID | closing | send status => exact not_false
      | _ => exact absurd trivial reads
  | _ => exact not_false

/-- No other place changes who a player is. -/
theorem Frame.sameFace {f : Frame} {r : f.act.α} (reads : ¬ f.Writes)
    (done : exec f.act.op c s.mem = some (r, m)) (p : PlayerPtr) :
    SameFace (m.player p) (s.mem.player p) :=
  exec_sameFace (Frame.not_names reads) done p

/-- What a place knows outlasts a step that unsets no flag, stores no account
over what it is reading, and leaves a `CompleteLogin` its player. -/
theorem Frame.Knows.mono {f : Frame} (fits : f.Fits s) (knows : f.Knows s h)
    (logined : ∀ p, Published s p → (s.mem.player p).isLogined = true →
      (s'.mem.player p).isLogined = true)
    (stored : ∀ p, Published s p → 0 < f.reading p → h'.stored p = h.stored p)
    (complete : 0 < f.completes → ∀ p, Published s p →
      SameFace (s'.mem.player p) (s.mem.player p) ∧ h'.stored p = h.stored p ∧
        h'.inserted p = h.inserted p) : f.Knows s' h' := by
  cases f with
  | complete sessionID p found pc =>
      obtain ⟨face, same, inserted⟩ := complete Nat.one_pos p fits.1
      cases pc with
      | isLogined | accountNo => exact inserted.trans knows
      | id i =>
          obtain ⟨current, inside, copying⟩ := knows
          exact ⟨same.trans current, inside, face.id ▸ copying⟩
      | nick i =>
          obtain ⟨current, inside, copied, copying⟩ := knows
          exact ⟨same.trans current, inside, face.id ▸ copied, face.nick ▸ copying⟩
      | _ => trivial
  | chat p pc =>
      have reads : 0 < share p p := by
        rw [share_self]
        exact Nat.one_pos
      cases pc with
      | accountNo chat => exact logined p fits knows
      | id chat account ids =>
          obtain ⟨found, current, rest⟩ := knows
          exact ⟨found, (stored p fits reads).trans current, rest⟩
      | nick chat account ids nicks =>
          obtain ⟨found, current, rest⟩ := knows
          exact ⟨found, (stored p fits reads).trans current, rest⟩
      | _ => trivial
  | leave sessionID p pc =>
      cases pc with
      | accountNo => exact logined p fits.1 knows
      | _ => trivial
  | _ => trivial

/-- The identity of a player at which nothing has been done. -/
theorem Identity.same {p : Nat} (identity : Identity s h p)
    (published : Published s p → Published s' p)
    (face : SameFace (s'.mem.player p) (s.mem.player p)) (stored : h'.stored p = h.stored p)
    (inserted : h'.inserted p = h.inserted p) (completed : ∀ x ∈ h.completed, x ∈ h'.completed)
    (flagging : s'.tally (Frame.flagging p) = s.tally (Frame.flagging p))
    (inserting : s'.tally (Frame.inserting p) = s.tally (Frame.inserting p))
    (copying : s'.tally (Frame.copying p) = s.tally (Frame.copying p)) : Identity s' h' p where
  fresh unpublished := by
    rw [stored, inserted]
    exact identity.fresh fun pub => unpublished (published pub)
  account same := face.accountNo.trans (identity.account (stored.symm.trans same))
  unstored none := by
    rw [face.accountNo, face.isLogined, flagging]
    exact identity.unstored (stored.symm.trans none)
  inserted idle := by
    rw [stored, inserted]
    exact identity.inserted (inserting.symm.trans idle)
  settled same idle := by
    obtain ⟨idMatches, nickMatches, member⟩ :=
      identity.settled (stored.symm.trans same) (copying.symm.trans idle)
    rw [face.id, face.nick]
    exact ⟨idMatches, nickMatches, completed _ member⟩

/-! ## Places between the stores -/

/-- `CompleteLogin` has stored nothing yet, or everything. -/
@[simp] def CompleteLogin.Idle : CompleteLogin → Prop
  | .sessionID => True
  | .closing => True
  | .accounts => True
  | .send _ => True
  | _ => False

@[simp] def Frame.Light : Frame → Prop
  | .complete _ _ _ pc => pc.Idle
  | _ => True

theorem Frame.Light.weights {f : Frame} (light : f.Light) (p : Nat) :
    f.flagging p = 0 ∧ f.inserting p = 0 ∧ f.copying p = 0 := by
  cases f with
  | complete sessionID q found pc =>
      cases pc with
      | sessionID | closing | accounts | send => exact ⟨rfl, rfl, rfl⟩
      | _ => cases light
  | _ => exact ⟨rfl, rfl, rfl⟩

/-- The place is no `CompleteLogin` behind its first one. -/
@[simp] def Frame.Started : Frame → Prop
  | .complete _ _ _ pc => pc = .sessionID
  | _ => True

theorem Frame.Started.light {f : Frame} (started : f.Started) : f.Light := by
  cases f with
  | complete sessionID q found pc =>
      cases started
      trivial
  | _ => trivial

theorem Frame.Visits.started {p : PlayerPtr} {f : Frame} (visits : f.Visits p) : f.Started := by
  cases f with
  | complete sessionID q found pc => cases visits
  | _ => trivial

/-- A `CompleteLogin` begins at its first place. -/
theorem Frame.started_next {f : Frame} (r : f.act.α)
    (other : ∀ sessionID p found pc, f ≠ .complete sessionID p found pc) :
    ∀ g ∈ f.act.next r, g.Started := by
  have visiting : ∀ {p : PlayerPtr}, f.Visits p → ∀ g ∈ f.act.next r, g.Started :=
    fun visits g member => (visits.next r g member).started
  cases f with
  | worker =>
      intro g member
      rcases List.mem_cons.mp member with rfl | last
      · cases r <;> trivial
      · rw [List.mem_singleton.mp last]
        trivial
  | redis => cases r <;> simp
  | acquire sessionID use => cases r <;> cases use <;> simp
  | acquired sessionID use p => cases r <;> cases use <;> simp
  | release p =>
      dsimp only [Frame.act]
      split <;> simp
  | free p => simp
  | join pc =>
      cases pc with
      | emplace sessionID p => cases r <;> simp
      | _ => simp
  | erase sessionID => cases r <;> simp
  | leave sessionID p pc =>
      cases pc with
      | isLogined => cases r <;> simp
      | accountNo | sectorY =>
          dsimp only [Frame.act, LeaveProc.act]
          split <;> simp
      | _ => simp
  | recv sessionID p env fuel packet => exact visiting (p := p) rfl
  | login sessionID p packet pc => exact visiting (p := p) rfl
  | move p req pc => exact visiting (p := p) rfl
  | chat p pc => exact visiting (p := p) rfl
  | fault => simp
  | complete sessionID p found pc => exact absurd rfl (other sessionID p found pc)

/-- A place that stores nothing. -/
def Frame.Idle (f : Frame) : Prop := ∀ sessionID p found pc,
  f = .complete sessionID p found pc → ¬ pc.Stores

theorem Frame.Idle.light {f : Frame} (idle : f.Idle) : f.Light := by
  cases f with
  | complete sessionID p found pc =>
      have still := idle sessionID p found pc rfl
      cases pc with
      | sessionID | closing | send => trivial
      | _ => exact absurd trivial still
  | _ => trivial

theorem Frame.Idle.light_next {f : Frame} (idle : f.Idle) (r : f.act.α) :
    ∀ g ∈ f.act.next r, g.Light := by
  cases f with
  | complete sessionID p found pc =>
      have still := idle sessionID p found pc rfl
      cases pc with
      | sessionID =>
          dsimp only [Frame.act, CompleteLogin.act]
          split <;> simp
      | closing =>
          cases r
          · dsimp only [Frame.act, CompleteLogin.act]
            split <;> simp
          · simp
      | send status => simp
      | _ => exact absurd trivial still
  | _ =>
      refine fun g member => (Frame.started_next r ?_ g member).light
      rintro _ _ _ _ ⟨⟩

section Step

variable {t : Nat} {f : Frame} {rest : List Frame} {r : f.act.α} (inv : Identified s h)
  (here : s.threads[t]? = some (f :: rest)) (done : exec f.act.op c s.mem = some (r, m))

include inv here in
theorem Identified.fits : f.Fits s :=
  inv.owned.fits _ (List.mem_of_getElem? here) _ List.mem_cons_self

include inv here in
theorem Identified.known : f.Knows s h :=
  inv.knows _ (List.mem_of_getElem? here) _ List.mem_cons_self

include inv here done in
theorem Identified.published {p : Nat} (pub : Published s p) :
    Published (after s t (f.act.next r) rest m) p :=
  (published_does inv.owned here (Frame.does (inv.fits here) done) p).mpr (Or.inr pub)

include inv here done in
/-- What there is to show of a step. -/
theorem Identified.next (identity : ∀ p, Identity (after s t (f.act.next r) rest m) h' p)
    (logined : ∀ p, Published s p → (s.mem.player p).isLogined = true →
      (m.player p).isLogined = true)
    (stored : ∀ p, 0 < s.tally (Frame.reading p) → h'.stored p = h.stored p)
    (complete : f.completes = 0 → ∀ p, Published s p →
      SameFace (m.player p) (s.mem.player p) ∧ h'.stored p = h.stored p ∧
        h'.inserted p = h.inserted p)
    (knows : ∀ g ∈ f.act.next r, g.Knows (after s t (f.act.next r) rest m) h')
    (honest : h'.Honest) : Identified (after s t (f.act.next r) rest m) h' where
  owned := owned_does inv.owned here (Frame.does (inv.fits here) done)
  single := (completes_after here done).trans inv.single
  identity := identity
  knows := by
    refine Machine.forall_frames_step here knows fun stack member g inside => ?_
    obtain ⟨stack', old, inside'⟩ := Machine.exists_of_stayed here member inside
    refine (inv.knows stack' old g inside').mono (inv.owned.fits stack' old g inside') logined
      (fun p _ reads => stored p (reads.trans_le (Conf.le_tally old inside'))) fun completes =>
        complete ?_
    -- there is one `RedisThread`
    have both := Machine.add_le_tally Frame.completes here member inside
    have single := inv.single
    omega
  honest := honest

include here in
/-- A step that stores nothing does not change how many are storing. -/
theorem tally_light {w : Frame → Nat} (light : ∀ g : Frame, g.Light → w g = 0) (idle : f.Idle) :
    (after s t (f.act.next r) rest m).tally w = s.tally w := by
  have exchanged := tally_after m (f.act.next r) here w
  have none : ((f.act.next r).map w).sum = 0 := by
    refine List.sum_eq_zero fun k member => ?_
    obtain ⟨g, inside, rfl⟩ := List.mem_map.mp member
    exact light g (idle.light_next r g inside)
  rw [light f idle.light, none] at exchanged
  exact exchanged

variable (h') in
include inv here done in
/-- A step that only looks at players. -/
theorem Identified.look (reads : ¬ f.Writes) (stored : h'.stored = h.stored)
    (inserted : h'.inserted = h.inserted) (completed : h'.completed = h.completed)
    (knows : ∀ g ∈ f.act.next r, g.Knows (after s t (f.act.next r) rest m) h')
    (honest : h'.Honest) : Identified (after s t (f.act.next r) rest m) h' := by
  have idle : f.Idle := by
    rintro sessionID p found pc rfl
    exact reads
  have face := fun p => Frame.sameFace reads done p
  refine inv.next here done (fun p => ?_) (fun p _ logined => (face p).isLogined.trans logined)
    (fun p _ => congrFun stored p)
    (fun _ p _ => ⟨face p, congrFun stored p, congrFun inserted p⟩) knows honest
  exact (inv.identity p).same (inv.published here done) (face p) (congrFun stored p)
    (congrFun inserted p) (fun x member => completed ▸ member)
    (tally_light here (fun g light => (light.weights p).1) idle)
    (tally_light here (fun g light => (light.weights p).2.1) idle)
    (tally_light here (fun g light => (light.weights p).2.2) idle)

end Step

section Prepare

variable {t : Nat} {rest : List Frame} {now sessionID : UINT64} {p : PlayerPtr}

/-- `JoinProc` prepares a block that nobody knows. -/
theorem Identified.prepare (inv : Identified s h)
    (here : s.threads[t]? = some (.join (.prepare now sessionID p) :: rest))
    {r : (Frame.act (.join (.prepare now sessionID p))).α}
    (done : exec (Frame.act (.join (.prepare now sessionID p))).op c s.mem = some (r, m)) :
    Identified (after s t ((Frame.act (.join (.prepare now sessionID p))).next r) rest m) h := by
  have unpublished : ¬ Published s p := by
    refine not_published_of_fresh (List.mem_of_getElem? here) List.mem_cons_self ?_
    rw [show Frame.fresh p (.join (.prepare now sessionID p)) = 1 from share_self p]
    exact Nat.one_pos
  obtain ⟨-, rfl⟩ := Prod.mk.inj (Option.some.inj done)
  have others : ∀ q, q ≠ p → SameFace ((s.mem.updatePlayer p
      (Store.prepare now sessionID).apply).player q) (s.mem.player q) := by
    intro q different
    rw [ChatServer.player_updatePlayer_of_ne _ different]
    exact .refl _
  have self := ChatServer.player_updatePlayer_self s.mem p (Store.prepare now sessionID).apply
  have idle : (Frame.join (.prepare now sessionID p)).Idle := by
    rintro _ _ _ _ ⟨⟩
  have ne : ∀ {q}, Published s q → q ≠ p := by
    rintro q pub rfl
    exact unpublished pub
  have published := fun {q} => inv.published (p := q) here done
  refine inv.next here done (fun q => ?_) (fun q pub logined => ?_) (fun _ _ => rfl)
    (fun _ q pub => ⟨others q (ne pub), rfl, rfl⟩) (by simp) inv.honest
  · rcases eq_or_ne q p with rfl | different
    · obtain ⟨unstored, uninserted⟩ := (inv.identity q).fresh unpublished
      refine ⟨fun _ => ⟨unstored, uninserted⟩, ?_, ?_, ?_, ?_⟩
      · intro found stored
        rw [unstored] at stored
        cases stored
      · intro _
        show ((s.mem.updatePlayer q _).player q).accountNo = 0 ∧
          (((s.mem.updatePlayer q _).player q).isLogined = true → _)
        rw [self]
        exact ⟨rfl, fun logined => by cases logined⟩
      · intro _
        rw [unstored, uninserted]
        rfl
      · intro found stored
        rw [unstored] at stored
        cases stored
    · exact (inv.identity q).same published (others q different) rfl rfl (fun _ member => member)
        (tally_light here (fun g light => (light.weights q).1) idle)
        (tally_light here (fun g light => (light.weights q).2.1) idle)
        (tally_light here (fun g light => (light.weights q).2.2) idle)
  · exact (others q (ne pub)).isLogined.trans logined

end Prepare

/-! ## `CompleteLogin` -/

theorem share_le_one {α : Type} [DecidableEq α] (x y : α) : share x y ≤ 1 := by
  unfold share
  split <;> omega

/-- The weights of the places in `CompleteLogin`. -/
theorem Frame.weights_le (f : Frame) (p : Nat) : f.flagging p ≤ f.completes ∧
    f.inserting p ≤ f.completes ∧ f.copying p ≤ f.completes := by
  cases f with
  | complete sessionID q found pc =>
      have one : share q p ≤ 1 := share_le_one q p
      cases pc <;> exact ⟨by simp [one], by simp [one], by simp [one]⟩
  | _ => exact ⟨Nat.zero_le _, Nat.zero_le _, Nat.zero_le _⟩

section Complete

variable {t : Nat} {rest : List Frame} {sessionID : UINT64} {p : PlayerPtr} {found : Login}
  {pc : CompleteLogin} {r : (Frame.act (.complete sessionID p found pc)).α}
  (inv : Identified s h) (here : s.threads[t]? = some (.complete sessionID p found pc :: rest))
  (done : exec (Frame.act (.complete sessionID p found pc)).op c s.mem = some (r, m))

/-- `CompleteLogin` stays with its player. -/
theorem CompleteLogin.weights_next (r : (Frame.act (.complete sessionID p found pc)).α)
    {w : Frame → Nat} (redis : w .redis = 0) (release : w (.release p) = 0)
    (on : ∀ pc', w (.complete sessionID p found pc') = 0) :
    (((Frame.act (.complete sessionID p found pc)).next r).map w).sum = 0 := by
  cases pc with
  | sessionID =>
      dsimp only [Frame.act, CompleteLogin.act]
      split <;> simp [redis, on]
  | closing =>
      cases r
      · dsimp only [Frame.act, CompleteLogin.act]
        split <;> simp [on]
      · simp [redis, release]
  | id i | nick i =>
      dsimp only [Frame.act, CompleteLogin.act]
      split
      · simp [on]
      · split <;> simp [on]
  | send status => simp [redis, release]
  | invalid => rfl
  | _ => simp [on]

include inv here done in
/-- What there is to show of a step of `CompleteLogin`. -/
theorem Identified.completing
    (others : ∀ q, q ≠ p → SameFace (m.player q) (s.mem.player q) ∧ h'.stored q = h.stored q ∧
      h'.inserted q = h.inserted q)
    (completed : ∀ x ∈ h.completed, x ∈ h'.completed)
    (logined : (s.mem.player p).isLogined = true → (m.player p).isLogined = true)
    (stored : 0 < s.tally (Frame.reading p) → h'.stored p = h.stored p)
    (own : Identity (after s t ((Frame.act (.complete sessionID p found pc)).next r) rest m) h' p)
    (knows : ∀ g ∈ (Frame.act (.complete sessionID p found pc)).next r,
      g.Knows (after s t ((Frame.act (.complete sessionID p found pc)).next r) rest m) h')
    (honest : h'.Honest) :
    Identified (after s t ((Frame.act (.complete sessionID p found pc)).next r) rest m) h' := by
  refine inv.next here done (fun q => ?_) (fun q _ before => ?_) (fun q reads => ?_)
    (fun none => by cases none) knows honest
  · rcases eq_or_ne q p with rfl | other
    · exact own
    · obtain ⟨face, same, inserted⟩ := others q other
      have elsewhere : share p q = 0 := share_of_ne other.symm
      have unchanged : ∀ {w : Frame → Nat}, (∀ g : Frame, w g ≤ g.completes) →
          w .redis = 0 → w (.release p) = 0 → (∀ pc', w (.complete sessionID p found pc') = 0) →
          (after s t ((Frame.act (.complete sessionID p found pc)).next r) rest m).tally w =
            s.tally w := by
        intro w le redis release on
        obtain ⟨before, now⟩ := tally_alone inv.single here rfl le
          ((Frame.act (.complete sessionID p found pc)).next r) m
        rw [before, now, on, CompleteLogin.weights_next r redis release on]
      refine (inv.identity q).same (inv.published here done) face same inserted completed
        (unchanged (fun g => (g.weights_le q).1) rfl rfl ?_)
        (unchanged (fun g => (g.weights_le q).2.1) rfl rfl ?_)
        (unchanged (fun g => (g.weights_le q).2.2) rfl rfl ?_) <;>
      · intro pc'
        cases pc' <;> first | exact elsewhere | rfl
  · rcases eq_or_ne q p with rfl | other
    · exact logined before
    · exact (others q other).1.isLogined.trans before
  · rcases eq_or_ne q p with rfl | other
    · exact stored reads
    · exact (others q other).2.1

end Complete

section Stores

variable {t : Nat} {rest : List Frame} {sessionID : UINT64} {p : PlayerPtr} {found : Login}
  (inv : Identified s h)

/-- How many are where, after a step of `CompleteLogin` that goes on to `pc'`. -/
structure Alone (s s' : Conf Frame ChatServer) (p : PlayerPtr) (f g : Frame) : Prop where
  published : Published s' p
  flagging : s.tally (Frame.flagging p) = f.flagging p
  flagging' : s'.tally (Frame.flagging p) = g.flagging p
  inserting : s.tally (Frame.inserting p) = f.inserting p
  inserting' : s'.tally (Frame.inserting p) = g.inserting p
  copying : s.tally (Frame.copying p) = f.copying p
  copying' : s'.tally (Frame.copying p) = g.copying p

include inv in
theorem Identified.goesOn {pc pc' : CompleteLogin}
    {r : (Frame.act (.complete sessionID p found pc)).α}
    (here : s.threads[t]? = some (.complete sessionID p found pc :: rest))
    (done : exec (Frame.act (.complete sessionID p found pc)).op c s.mem = some (r, m))
    (next : (Frame.act (.complete sessionID p found pc)).next r =
      [.complete sessionID p found pc']) :
    Alone s (after s t ((Frame.act (.complete sessionID p found pc)).next r) rest m) p
      (.complete sessionID p found pc) (.complete sessionID p found pc') := by
  have pub := inv.published here done (inv.fits here).1
  rw [next] at pub ⊢
  have flagging := tally_alone inv.single here rfl (fun g => (g.weights_le p).1)
    [.complete sessionID p found pc'] m
  have inserting := tally_alone inv.single here rfl (fun g => (g.weights_le p).2.1)
    [.complete sessionID p found pc'] m
  have copying := tally_alone inv.single here rfl (fun g => (g.weights_le p).2.2)
    [.complete sessionID p found pc'] m
  exact ⟨pub, flagging.1, flagging.2, inserting.1, inserting.2, copying.1, copying.2⟩

include inv

/-- `accounts[account] = sessionID`. -/
theorem Identified.accounts {r : (Frame.act (.complete sessionID p found .accounts)).α}
    (here : s.threads[t]? = some (.complete sessionID p found .accounts :: rest))
    (done : exec (Frame.act (.complete sessionID p found .accounts)).op c s.mem = some (r, m)) :
    Identified (after s t ((Frame.act (.complete sessionID p found .accounts)).next r) rest m)
      { h with inserted := Function.update h.inserted p (some found.account) } := by
  have alone := inv.goesOn here done rfl
  have identity := inv.identity p
  have players : m.player = s.mem.player := by
    cases done
    rfl
  have face : ∀ q, SameFace (m.player q) (s.mem.player q) := fun q => players ▸ .refl _
  refine inv.completing here done
    (fun q other => ⟨face q, rfl, Function.update_of_ne other ..⟩) (fun _ member => member)
    (face p).isLogined.trans (fun _ => rfl) ?_ ?_ ⟨inv.honest.answers, inv.honest.seen⟩
  · refine ⟨fun unpublished => absurd alone.published unpublished,
      fun stored => (face p).accountNo.trans (identity.account stored), fun none => ?_,
      fun idle => ?_, fun stored idle => ?_⟩
    · obtain ⟨zero, flagged⟩ := identity.unstored none
      refine ⟨(face p).accountNo.trans zero, fun logined => ?_⟩
      have flagging := flagged ((face p).isLogined.symm.trans logined)
      rw [alone.flagging] at flagging
      cases flagging
    · rw [alone.inserting'] at idle
      exact absurd idle (by simp [share_self])
    · show Matches 0 (m.player p).id.toList _ ∧ Matches 0 (m.player p).nick.toList _ ∧ _
      rw [(face p).id, (face p).nick]
      exact identity.settled stored alone.copying
  · intro g member
    rw [List.mem_singleton.mp member]
    exact Function.update_self ..

omit inv in
/-- A store of `CompleteLogin` is to its own player. -/
theorem store_cases (store : Store) {r : Unit}
    (done : exec (.store p store) c s.mem = some (r, m)) :
    m.player p = store.apply (s.mem.player p) ∧
      ∀ q, q ≠ p → SameFace (m.player q) (s.mem.player q) := by
  obtain ⟨-, rfl⟩ := Prod.mk.inj (Option.some.inj done)
  refine ⟨ChatServer.player_updatePlayer_self .., fun q other => ?_⟩
  rw [ChatServer.player_updatePlayer_of_ne _ other]
  exact .refl _

/-- `isLogined = true`. -/
theorem Identified.isLogined {r : (Frame.act (.complete sessionID p found .isLogined)).α}
    (here : s.threads[t]? = some (.complete sessionID p found .isLogined :: rest))
    (done : exec (Frame.act (.complete sessionID p found .isLogined)).op c s.mem = some (r, m)) :
    Identified (after s t ((Frame.act (.complete sessionID p found .isLogined)).next r) rest m)
      h := by
  have alone := inv.goesOn here done rfl
  have identity := inv.identity p
  obtain ⟨self, others⟩ := store_cases _ done
  refine inv.completing here done (fun q other => ⟨others q other, rfl, rfl⟩)
    (fun _ member => member) (fun _ => congrArg Player.isLogined self) (fun _ => rfl) ?_ ?_
    inv.honest
  · refine ⟨fun unpublished => absurd alone.published unpublished,
      fun stored => (congrArg Player.accountNo self).trans (identity.account stored),
      fun none => ⟨(congrArg Player.accountNo self).trans (identity.unstored none).1, fun _ => ?_⟩,
      fun idle => ?_, fun stored idle => ?_⟩
    · rw [alone.flagging']
      simp [share_self]
    · rw [alone.inserting'] at idle
      exact absurd idle (by simp [share_self])
    · show Matches 0 (m.player p).id.toList _ ∧ Matches 0 (m.player p).nick.toList _ ∧ _
      rw [self]
      exact identity.settled stored alone.copying
  · intro g member
    rw [List.mem_singleton.mp member]
    exact inv.known here

/-- `accountNo = account`, while nobody is reading. -/
theorem Identified.accountNo {r : (Frame.act (.complete sessionID p found .accountNo)).α}
    (here : s.threads[t]? = some (.complete sessionID p found .accountNo :: rest))
    (done : exec (Frame.act (.complete sessionID p found .accountNo)).op c s.mem = some (r, m))
    (unread : s.tally (Frame.reading p) = 0) :
    Identified (after s t ((Frame.act (.complete sessionID p found .accountNo)).next r) rest m)
      { h with stored := Function.update h.stored p (some found) } := by
  have alone := inv.goesOn here done rfl
  have inserted : h.inserted p = some found.account := inv.known here
  have stored : Function.update h.stored p (some found) p = some found := Function.update_self ..
  obtain ⟨self, others⟩ := store_cases _ done
  refine inv.completing here done
    (fun q other => ⟨others q other, Function.update_of_ne other .., rfl⟩) (fun _ member => member)
    (fun logined => (congrArg Player.isLogined self).trans logined)
    (fun reads => absurd unread (Nat.pos_iff_ne_zero.mp reads)) ?_ ?_
    ⟨inv.honest.answers, inv.honest.seen⟩
  · refine ⟨fun unpublished => absurd alone.published unpublished, fun same => ?_, fun none => ?_,
      fun _ => ?_, fun _ idle => ?_⟩
    · obtain rfl := Option.some.inj (stored.symm.trans same)
      exact congrArg Player.accountNo self
    · cases stored.symm.trans none
    · exact inserted.trans (congrArg (Option.map Login.account) stored).symm
    · rw [alone.copying'] at idle
      exact absurd idle (by simp [share_self])
  · intro g member
    rw [List.mem_singleton.mp member]
    exact ⟨stored, by omega, .none⟩

omit inv in
theorem toList_setChar (name : Vector WCHAR 20) (i : Nat) (x : WCHAR) :
    (setChar name i x).toList = name.toList.set i x := by
  apply List.ext_getElem
  · simp
  · intro k inside inside'
    have size : k < 20 := by simpa using inside
    have here : (setChar name i x)[k] = if k = i then x else name[k] := Vector.getElem_ofFn size
    rw [List.getElem_set, Vector.getElem_toList, Vector.getElem_toList, here]
    exact if_congr eq_comm rfl rfl

/-- A character of a name is stored, and more is to be. -/
theorem Identified.copies {pc : CompleteLogin} (pc' : CompleteLogin)
    {r : (Frame.act (.complete sessionID p found pc)).α}
    (here : s.threads[t]? = some (.complete sessionID p found pc :: rest))
    (done : exec (Frame.act (.complete sessionID p found pc)).op c s.mem = some (r, m))
    (next : (Frame.act (.complete sessionID p found pc)).next r = [.complete sessionID p found pc'])
    (isLogined : (m.player p).isLogined = (s.mem.player p).isLogined)
    (accountNo : (m.player p).accountNo = (s.mem.player p).accountNo)
    (others : ∀ q, q ≠ p → SameFace (m.player q) (s.mem.player q))
    (stored : h.stored p = some found)
    (inserting : Frame.inserting p (.complete sessionID p found pc) = 0)
    (copying : 0 < Frame.copying p (.complete sessionID p found pc'))
    (knows : (Frame.complete sessionID p found pc').Knows
      (after s t ((Frame.act (.complete sessionID p found pc)).next r) rest m) h) :
    Identified (after s t ((Frame.act (.complete sessionID p found pc)).next r) rest m) h := by
  have alone := inv.goesOn here done next
  have identity := inv.identity p
  refine inv.completing here done (fun q other => ⟨others q other, rfl, rfl⟩)
    (fun _ member => member) isLogined.trans (fun _ => rfl) ?_ ?_ inv.honest
  · refine ⟨fun unpublished => absurd alone.published unpublished,
      fun same => accountNo.trans (identity.account same), fun none => ?_, fun _ => ?_,
      fun _ idle => ?_⟩
    · cases stored.symm.trans none
    · exact identity.inserted (alone.inserting.trans inserting)
    · rw [alone.copying'] at idle
      exact absurd idle (Nat.pos_iff_ne_zero.mp copying)
  · intro g member
    rw [next] at member
    rw [List.mem_singleton.mp member]
    exact knows

/-- A character of `id` is stored. -/
theorem Identified.id {i : Nat} {r : (Frame.act (.complete sessionID p found (.id i))).α}
    (here : s.threads[t]? = some (.complete sessionID p found (.id i) :: rest))
    (done : exec (Frame.act (.complete sessionID p found (.id i))).op c s.mem = some (r, m)) :
    Identified (after s t ((Frame.act (.complete sessionID p found (.id i))).next r) rest m) h := by
  obtain ⟨stored, inside, copying⟩ := inv.known here
  obtain ⟨self, others⟩ := store_cases (.id i (charAt found.id i)) done
  have own : share p p ≠ 0 := by simp [share_self]
  have name : (m.player p).id.toList =
      (s.mem.player p).id.toList.set i (found.id.toList.getD i 0) := by
    rw [self]
    exact toList_setChar ..
  have isLogined : (m.player p).isLogined = (s.mem.player p).isLogined := by
    rw [self]
    simp only [Store.apply]
  have accountNo : (m.player p).accountNo = (s.mem.player p).accountNo := by
    rw [self]
    simp only [Store.apply]
  have inside' : i < (s.mem.player p).id.toList.length := by simpa using inside
  by_cases ends : charAt found.id i = 0
  · refine inv.copies (.nick 0) here done (if_pos ends) isLogined accountNo others stored rfl
      (Nat.pos_of_ne_zero own) ⟨stored, by omega, ?_, .none⟩
    show Matches 0 (m.player p).id.toList _
    rw [name]
    exact copying.ended inside' ends
  · by_cases more : i + 1 < 20
    · refine inv.copies (.id (i + 1)) here done ((if_neg ends).trans (if_pos more)) isLogined
        accountNo others stored rfl (Nat.pos_of_ne_zero own) ⟨stored, more, ?_⟩
      show Copying 0 (i + 1) (m.player p).id.toList _
      rw [name]
      exact copying.next inside' ends
    · exact inv.copies .invalid here done ((if_neg ends).trans (if_neg more)) isLogined
        accountNo others stored rfl (Nat.pos_of_ne_zero own) trivial

/-- A character of `nick` is stored. -/
theorem Identified.nick {i : Nat} {r : (Frame.act (.complete sessionID p found (.nick i))).α}
    (here : s.threads[t]? = some (.complete sessionID p found (.nick i) :: rest))
    (done : exec (Frame.act (.complete sessionID p found (.nick i))).op c s.mem = some (r, m)) :
    Identified (after s t ((Frame.act (.complete sessionID p found (.nick i))).next r) rest m)
      (Register.note t (.complete sessionID p found (.nick i)) rest r h) := by
  obtain ⟨stored, inside, copied, copying⟩ := inv.known here
  obtain ⟨self, others⟩ := store_cases (.nick i (charAt found.nick i)) done
  have own : share p p ≠ 0 := by simp [share_self]
  have name : (m.player p).nick.toList =
      (s.mem.player p).nick.toList.set i (found.nick.toList.getD i 0) := by
    rw [self]
    exact toList_setChar ..
  have isLogined : (m.player p).isLogined = (s.mem.player p).isLogined := by
    rw [self]
    simp only [Store.apply]
  have accountNo : (m.player p).accountNo = (s.mem.player p).accountNo := by
    rw [self]
    simp only [Store.apply]
  have id : (m.player p).id = (s.mem.player p).id := by
    rw [self]
    simp only [Store.apply]
  have inside' : i < (s.mem.player p).nick.toList.length := by simpa using inside
  by_cases ends : charAt found.nick i = 0
  · rw [show Register.note t (.complete sessionID p found (.nick i)) rest r h =
      { h with completed := (p, found) :: h.completed } from if_pos ends]
    have next : (Frame.act (.complete sessionID p found (.nick i))).next r =
        [.complete sessionID p found (.send 1)] := if_pos ends
    have alone := inv.goesOn here done next
    have identity := inv.identity p
    refine inv.completing here done (fun q other => ⟨others q other, rfl, rfl⟩)
      (fun _ member => List.mem_cons_of_mem _ member) isLogined.trans (fun _ => rfl) ?_ ?_ ?_
    · refine ⟨fun unpublished => absurd alone.published unpublished,
        fun same => accountNo.trans (identity.account same), fun none => ?_, fun _ => ?_,
        fun same _ => ?_⟩
      · cases stored.symm.trans none
      · exact identity.inserted alone.inserting
      · obtain rfl := Option.some.inj (stored.symm.trans same)
        show Matches 0 (m.player p).id.toList _ ∧ Matches 0 (m.player p).nick.toList _ ∧ _
        rw [id, name]
        exact ⟨copied, copying.ended inside' ends, List.mem_cons_self⟩
    · intro g member
      rw [next] at member
      rw [List.mem_singleton.mp member]
      trivial
    · refine ⟨fun q x answer => ?_, inv.honest.seen⟩
      obtain ⟨found', member, same⟩ := inv.honest.answers q x answer
      exact ⟨found', List.mem_cons_of_mem _ member, same⟩
  · rw [show Register.note t (.complete sessionID p found (.nick i)) rest r h = h from if_neg ends]
    by_cases more : i + 1 < 20
    · refine inv.copies (.nick (i + 1)) here done ((if_neg ends).trans (if_pos more))
        isLogined accountNo others stored rfl (Nat.pos_of_ne_zero own) ⟨stored, more, ?_, ?_⟩
      · show Matches 0 (m.player p).id.toList _
        rw [id]
        exact copied
      · show Copying 0 (i + 1) (m.player p).nick.toList _
        rw [name]
        exact copying.next inside' ends
    · exact inv.copies .invalid here done ((if_neg ends).trans (if_neg more)) isLogined
        accountNo others stored rfl (Nat.pos_of_ne_zero own) trivial

end Stores

/-! ## Readers -/

section Reads

variable {p : PlayerPtr} {found : Login} {i : Nat}

/-- Who is copying to a player. -/
theorem copying_cases (copying : 0 < s.tally (Frame.copying p)) :
    ∃ stack ∈ s.threads, ∃ sessionID found pc, .complete sessionID p found pc ∈ stack ∧
      ((∃ i, pc = .id i) ∨ (∃ i, pc = .nick i) ∨ pc = .invalid) := by
  obtain ⟨stack, member, f, inside, pos⟩ := Conf.exists_of_tally_pos copying
  refine ⟨stack, member, ?_⟩
  cases f with
  | complete sessionID q found pc =>
      cases pc with
      | id i =>
          cases eq_of_share_pos pos
          exact ⟨sessionID, found, _, inside, Or.inl ⟨i, rfl⟩⟩
      | nick i =>
          cases eq_of_share_pos pos
          exact ⟨sessionID, found, _, inside, Or.inr (Or.inl ⟨i, rfl⟩)⟩
      | invalid =>
          cases eq_of_share_pos pos
          exact ⟨sessionID, found, _, inside, Or.inr (Or.inr rfl)⟩
      | _ => cases pos
  | _ => cases pos

variable (inv : Identified s h) (stored : h.stored p = some found)

include inv stored

/-- A character of `id` that nobody has yet to store is that of the login. -/
theorem Identified.id_read (safe : s.tally (Frame.lacksId p i) = 0) (inside : i < 20)
    (reaches : Reaches 0 found.id.toList i) :
    (s.mem.player p).id.toList.getD i 0 = found.id.toList.getD i 0 := by
  rcases Nat.eq_zero_or_pos (s.tally (Frame.copying p)) with idle | busy
  · exact ((inv.identity p).settled stored idle).1 i (by simpa using inside) reaches
  · obtain ⟨stack, member, sessionID, found', pc, here, place⟩ := copying_cases busy
    have knows := inv.knows stack member _ here
    have light := Conf.le_tally (w := Frame.lacksId p i) member here
    rw [safe] at light
    rcases place with ⟨j, rfl⟩ | ⟨j, rfl⟩ | rfl
    · obtain ⟨same, -, copying⟩ := knows
      obtain rfl := Option.some.inj (stored.symm.trans same)
      refine copying.getD_eq ?_
      by_contra later
      simp [Nat.le_of_not_lt later, share_self] at light
    · obtain ⟨same, -, copied, -⟩ := knows
      obtain rfl := Option.some.inj (stored.symm.trans same)
      exact copied i (by simpa using inside) reaches
    · simp [share_self] at light

/-- A character of `nick` that nobody has yet to store is that of the login. -/
theorem Identified.nick_read (safe : s.tally (Frame.lacksNick p i) = 0) (inside : i < 20)
    (reaches : Reaches 0 found.nick.toList i) :
    (s.mem.player p).nick.toList.getD i 0 = found.nick.toList.getD i 0 := by
  rcases Nat.eq_zero_or_pos (s.tally (Frame.copying p)) with idle | busy
  · exact ((inv.identity p).settled stored idle).2.1 i (by simpa using inside) reaches
  · obtain ⟨stack, member, sessionID, found', pc, here, place⟩ := copying_cases busy
    have knows := inv.knows stack member _ here
    have light := Conf.le_tally (w := Frame.lacksNick p i) member here
    rw [safe] at light
    rcases place with ⟨j, rfl⟩ | ⟨j, rfl⟩ | rfl
    · simp [share_self] at light
    · obtain ⟨same, -, -, copying⟩ := knows
      obtain rfl := Option.some.inj (stored.symm.trans same)
      refine copying.getD_eq ?_
      by_contra later
      simp [Nat.le_of_not_lt later, share_self] at light
    · simp [share_self] at light

/-- Whoever may read the last character reads a login that is complete. -/
theorem Identified.completed_of_last (safe : s.tally (Frame.lacksNick p 19) = 0) :
    (p, found) ∈ h.completed := by
  rcases Nat.eq_zero_or_pos (s.tally (Frame.copying p)) with idle | busy
  · exact ((inv.identity p).settled stored idle).2.2
  · obtain ⟨stack, member, sessionID, found', pc, here, place⟩ := copying_cases busy
    have knows := inv.knows stack member _ here
    have light := Conf.le_tally (w := Frame.lacksNick p 19) member here
    rw [safe] at light
    rcases place with ⟨j, rfl⟩ | ⟨j, rfl⟩ | rfl
    · simp [share_self] at light
    · have inside : j ≤ 19 := Nat.le_of_lt_succ knows.2.1
      simp [inside, share_self] at light
    · simp [share_self] at light

end Reads

theorem textOf_read {xs : List WCHAR} {name : Vector WCHAR 20} (length : xs.length = 20)
    (same : Matches 0 xs name.toList) :
    textOf (Vector.ofFn fun i : Fin 20 => xs.getD i 0) = textOf name := by
  have read : (Vector.ofFn fun i : Fin 20 => xs.getD i 0).toList = xs := by
    apply List.ext_getElem
    · simp [length]
    · intro k inside inside'
      simp [List.getElem?_eq_getElem inside']
  unfold textOf
  rw [read]
  exact same.takeWhile_eq (by simp [length])

section Chat

variable {t : Nat} {rest : List Frame} {p : PlayerPtr}

theorem ReqChat.knows_scans {s : Conf Frame ChatServer} {h : Register} {res : CPacket}
    {targets : List UINT64} {cells : List (Nat × Nat)} :
    ∀ g ∈ ReqChat.scans p res targets cells, g.Knows s h := by
  cases cells with
  | nil => cases targets <;> simp
  | cons cell cells => simp

/-! The steps of `Req_Chat`. -/

/-- `Req_Chat` reads on only for a player that is logged in. -/
theorem Identified.chat_isLogined {env : Env} {fuel : Nat} {packet : CPacket}
    {r : (Frame.act (.chat p (.isLogined env fuel packet))).α} (inv : Identified s h)
    (here : s.threads[t]? = some (.chat p (.isLogined env fuel packet) :: rest))
    (done : exec (Frame.act (.chat p (.isLogined env fuel packet))).op c s.mem = some (r, m)) :
    Identified (after s t ((Frame.act (.chat p (.isLogined env fuel packet))).next r) rest m)
      (Register.note t (.chat p (.isLogined env fuel packet)) rest r h) := by
  have face := Frame.sameFace (by simp) done p
  refine inv.look _ here done (by simp) rfl rfl rfl ?_ inv.honest
  obtain ⟨logined, -⟩ := exec_load done
  cases r with
  | false => simp
  | true =>
      dsimp only [Frame.act, ReqChat.act, ReqChat.read]
      intro g member
      split at member
      · cases member
      · split at member
        · rw [List.mem_singleton.mp member]
          exact face.isLogined.trans logined
        · rw [List.mem_singleton.mp member]
          trivial

/-- The account that `Res_Chat` reads is that of a login. -/
theorem Identified.chat_accountNo {chat : Chat}
    {r : (Frame.act (.chat p (.accountNo chat))).α} (inv : Identified s h)
    (here : s.threads[t]? = some (.chat p (.accountNo chat) :: rest))
    (done : exec (Frame.act (.chat p (.accountNo chat))).op c s.mem = some (r, m))
    (calm : races s t = false) :
    Identified (after s t ((Frame.act (.chat p (.accountNo chat))).next r) rest m)
      (Register.note t (.chat p (.accountNo chat)) rest r h) := by
  have top : s.top t = some (.chat p (.accountNo chat)) := Conf.top_of_here here
  rw [races, top] at calm
  have knows := inv.known here
  refine inv.look _ here done (by simp) rfl rfl rfl ?_ inv.honest
  obtain ⟨account, -⟩ := exec_load done
  intro g member
  rw [List.mem_singleton.mp member]
  cases stored : h.stored p with
  | none =>
      obtain ⟨zero, flagged⟩ := (inv.identity p).unstored stored
      simp only [decide_eq_false_iff_not, not_and] at calm
      exact absurd (flagged knows) (calm zero)
  | some found =>
      exact ⟨found, stored, account.symm.trans ((inv.identity p).account stored), by simp, .nil⟩

/-- Every character of `id` that `Res_Chat` reads is that of the same login. -/
theorem Identified.chat_id {chat : Chat} {account : INT64} {ids : List WCHAR}
    {r : (Frame.act (.chat p (.id chat account ids))).α} (inv : Identified s h)
    (here : s.threads[t]? = some (.chat p (.id chat account ids) :: rest))
    (done : exec (Frame.act (.chat p (.id chat account ids))).op c s.mem = some (r, m))
    (calm : races s t = false) :
    Identified (after s t ((Frame.act (.chat p (.id chat account ids))).next r) rest m)
      (Register.note t (.chat p (.id chat account ids)) rest r h) := by
  have top : s.top t = some (.chat p (.id chat account ids)) := Conf.top_of_here here
  rw [races, top] at calm
  have knows := inv.known here
  refine inv.look _ here done (by simp) rfl rfl rfl ?_ inv.honest
  obtain ⟨x, rfl⟩ : ∃ x : WCHAR, x = r := ⟨r, rfl⟩
  obtain ⟨char, -⟩ := exec_load done
  obtain ⟨found, stored, same, inside, copied⟩ := knows
  simp only [decide_eq_false_iff_not, Nat.pos_iff_ne_zero, ne_eq, not_not] at calm
  have read : Matches 0 (ids ++ [x]) found.id.toList :=
    copied.snoc fun reaches => char.symm.trans (inv.id_read stored calm inside reaches)
  dsimp only [Frame.act, ReqChat.act]
  intro g member
  split at member
  · rw [List.mem_singleton.mp member]
    exact ⟨found, stored, same, by simpa, read⟩
  · rw [List.mem_singleton.mp member]
    exact ⟨found, stored, same, by simp; omega, read, by simp, .nil⟩

/-- Every character of `nick` that `Res_Chat` reads is that of the same login, and with
the last one the login is complete. -/
theorem Identified.chat_nick {chat : Chat} {account : INT64} {ids nicks : List WCHAR}
    {r : (Frame.act (.chat p (.nick chat account ids nicks))).α} (inv : Identified s h)
    (here : s.threads[t]? = some (.chat p (.nick chat account ids nicks) :: rest))
    (done : exec (Frame.act (.chat p (.nick chat account ids nicks))).op c s.mem = some (r, m))
    (calm : races s t = false) :
    Identified (after s t ((Frame.act (.chat p (.nick chat account ids nicks))).next r) rest m)
      (Register.note t (.chat p (.nick chat account ids nicks)) rest r h) := by
  have top : s.top t = some (.chat p (.nick chat account ids nicks)) := Conf.top_of_here here
  rw [races, top] at calm
  have knows := inv.known here
  obtain ⟨x, rfl⟩ : ∃ x : WCHAR, x = r := ⟨r, rfl⟩
  obtain ⟨char, -⟩ := exec_load done
  obtain ⟨found, stored, same, idLength, copied, inside, copied'⟩ := knows
  simp only [decide_eq_false_iff_not, Nat.pos_iff_ne_zero, ne_eq, not_not] at calm
  have read : Matches 0 (nicks ++ [x]) found.nick.toList :=
    copied'.snoc fun reaches => char.symm.trans (inv.nick_read stored calm inside reaches)
  by_cases more : nicks.length + 1 < 20
  · rw [show Register.note t (.chat p (.nick chat account ids nicks)) rest x h = h from
      if_pos more]
    refine inv.look _ here done (by simp) rfl rfl rfl ?_ inv.honest
    rw [show (Frame.act (.chat p (.nick chat account ids nicks))).next x =
      [.chat p (.nick chat account ids (nicks ++ [x]))] from if_pos more]
    intro g member
    rw [List.mem_singleton.mp member]
    exact ⟨found, stored, same, idLength, copied, by simpa, read⟩
  · have last : nicks.length = 19 := by omega
    rw [last] at calm
    rw [show Register.note t (.chat p (.nick chat account ids nicks)) rest x h =
      { h with answers := (p, readPlayer account ids (nicks ++ [x])) :: h.answers } from
      if_neg more]
    refine inv.look _ here done (by simp) rfl rfl rfl ?_ ⟨?_, inv.honest.seen⟩
    · rw [show (Frame.act (.chat p (.nick chat account ids nicks))).next x =
        ReqChat.built p chat account ids (nicks ++ [x]) from if_neg more]
      dsimp only [ReqChat.built]
      intro g member
      split at member <;>
      · rw [List.mem_singleton.mp member]
        trivial
    · intro q y answer
      rcases List.mem_cons.mp answer with new | old
      · obtain ⟨rfl, rfl⟩ := Prod.mk.inj new
        exact ⟨found, inv.completed_of_last stored calm, same, textOf_read idLength copied,
          textOf_read (by simp [last]) read⟩
      · exact inv.honest.answers q y old

/-- A step of `Req_Chat`. -/
theorem Identified.chat {pc : ReqChat} {r : (Frame.act (.chat p pc)).α} (inv : Identified s h)
    (here : s.threads[t]? = some (.chat p pc :: rest))
    (done : exec (Frame.act (.chat p pc)).op c s.mem = some (r, m))
    (calm : races s t = false) :
    Identified (after s t ((Frame.act (.chat p pc)).next r) rest m)
      (Register.note t (.chat p pc) rest r h) := by
  cases pc with
  | isLogined env fuel packet => exact inv.chat_isLogined here done
  | accountNo chat => exact inv.chat_accountNo here done calm
  | id chat account ids => exact inv.chat_id here done calm
  | nick chat account ids nicks => exact inv.chat_nick here done calm
  | cx res =>
      exact inv.look _ here done (by simp) rfl rfl rfl (by simp) inv.honest
  | cy res x =>
      refine inv.look _ here done (by simp) rfl rfl rfl ?_ inv.honest
      dsimp only [Frame.act, ReqChat.act]
      split
      · exact ReqChat.knows_scans
      · simp
  | scan res targets cell cells =>
      exact inv.look _ here done (by simp) rfl rfl rfl ReqChat.knows_scans inv.honest
  | send res sid targets =>
      exact inv.look _ here done (by simp) rfl rfl rfl (by cases targets <;> simp) inv.honest

/-- `LeaveProc` sees what was inserted, if nothing else is being inserted. -/
theorem Identified.inserted_of_logined (inv : Identified s h)
    (logined : (s.mem.player p).isLogined = true)
    (calm : s.tally (Frame.insertingOther p (s.mem.player p).accountNo) = 0) :
    h.inserted p = some (s.mem.player p).accountNo := by
  have identity := inv.identity p
  rcases Nat.eq_zero_or_pos (s.tally (Frame.inserting p)) with idle | busy
  · rw [identity.inserted idle]
    cases stored : h.stored p with
    | none =>
        have flagged := (identity.unstored stored).2 logined
        have le : s.tally (Frame.flagging p) ≤ s.tally (Frame.inserting p) := by
          refine Conf.tally_le fun f => ?_
          cases f with
          | complete sessionID q found pc => cases pc <;> simp
          | _ => exact Nat.le_refl 0
        omega
    | some found => exact congrArg some (identity.account stored).symm
  · obtain ⟨stack, member, f, inside, pos⟩ := Conf.exists_of_tally_pos busy
    have light := Conf.le_tally (w := Frame.insertingOther p (s.mem.player p).accountNo) member
      inside
    rw [calm] at light
    have knows := inv.knows stack member f inside
    cases f with
    | complete sessionID q found pc =>
        cases pc with
        | isLogined | accountNo =>
            cases eq_of_share_pos pos
            have same : found.account = (s.mem.player p).accountNo := by
              by_contra other
              simp [other, share_self] at light
            exact knows.trans (congrArg some same)
        | _ => cases pos
    | _ => cases pos

/-- A step of `LeaveProc`. -/
theorem Identified.leave {sessionID : UINT64} {pc : LeaveProc}
    {r : (Frame.act (.leave sessionID p pc)).α} (inv : Identified s h)
    (here : s.threads[t]? = some (.leave sessionID p pc :: rest))
    (done : exec (Frame.act (.leave sessionID p pc)).op c s.mem = some (r, m))
    (calm : races s t = false) :
    Identified (after s t ((Frame.act (.leave sessionID p pc)).next r) rest m)
      (Register.note t (.leave sessionID p pc) rest r h) := by
  have top : s.top t = some (.leave sessionID p pc) := Conf.top_of_here here
  have knows := inv.known here
  have face := Frame.sameFace (by simp) done p
  rw [races, top] at calm
  cases pc with
  | isLogined =>
      obtain ⟨logined, -⟩ := exec_load done
      refine inv.look _ here done (by simp) rfl rfl rfl ?_ inv.honest
      cases r with
      | false => simp
      | true =>
          intro g member
          rw [List.mem_singleton.mp member]
          exact face.isLogined.trans logined
  | accountNo =>
      obtain ⟨account, -⟩ := exec_load done
      simp only [decide_eq_false_iff_not, Nat.pos_iff_ne_zero, ne_eq, not_not] at calm
      refine inv.look _ here done (by simp) rfl rfl rfl ?_ ⟨inv.honest.answers, ?_⟩
      · dsimp only [Frame.act, LeaveProc.act]
        split <;> simp
      · intro account' inserted saw
        rcases List.mem_cons.mp saw with new | old
        · obtain ⟨rfl, rfl⟩ := Prod.mk.inj new
          exact (inv.inserted_of_logined knows calm).trans (congrArg some account)
        · exact inv.honest.seen account' inserted old
  | sectorY x =>
      refine inv.look _ here done (by simp) rfl rfl rfl ?_ inv.honest
      dsimp only [Frame.act, LeaveProc.act]
      split <;> simp
  | _ => exact inv.look _ here done (by simp) rfl rfl rfl (by simp) inv.honest

end Chat

theorem dispatch_knows {sessionID : UINT64} {p : PlayerPtr} {env : Env} {fuel : Nat}
    {packet : CPacket} : ∀ g ∈ dispatch sessionID p env fuel packet, g.Knows s h := by
  dsimp only [dispatch]
  split
  · simp
  · split
    · split <;> simp
    · split <;> simp

/-- A step keeps the invariant, unless it races. -/
theorem Identified.step {t : Nat} {p q : Conf Frame ChatServer × Register}
    (inv : Identified p.1 p.2) (calm : races p.1 t = false)
    (step : chatServer.noted Register.note p t c = some q) : Identified q.1 q.2 := by
  obtain ⟨f, rest, r, m, here, done, rfl⟩ := chat_noted_cases step
  have look := fun reads => inv.look p.2 here done reads rfl rfl rfl
  cases f with
  | worker =>
      refine look (by simp) ?_ inv.honest
      intro g member
      rcases List.mem_cons.mp member with rfl | last
      · cases r <;> trivial
      · rw [List.mem_singleton.mp last]
        trivial
  | redis => exact look (by simp) (by cases r <;> simp) inv.honest
  | acquire sessionID use => exact look (by simp) (by cases r <;> cases use <;> simp) inv.honest
  | acquired sessionID use k =>
      exact look (by simp) (by cases r <;> cases use <;> simp) inv.honest
  | release k =>
      refine look (by simp) ?_ inv.honest
      dsimp only [Frame.act]
      split <;> simp
  | free k => exact look (by simp) (by simp) inv.honest
  | join pc =>
      cases pc with
      | prepare now sessionID k => exact inv.prepare here done
      | emplace sessionID k => exact look (by simp) (by cases r <;> simp) inv.honest
      | _ => exact look (by simp) (by simp) inv.honest
  | erase sessionID => exact look (by simp) (by cases r <;> simp) inv.honest
  | leave sessionID k pc => exact inv.leave here done calm
  | recv sessionID k env fuel packet => exact look (by simp) dispatch_knows inv.honest
  | login sessionID k packet pc =>
      refine look (by simp) ?_ inv.honest
      cases pc with
      | closing | isLogined => cases r <;> simp
      | sessionID | accountNo =>
          dsimp only [Frame.act, ReqLogin.act]
          split <;> simp
      | push => simp
  | move k req pc =>
      refine look (by simp) ?_ inv.honest
      cases pc with
      | time =>
          dsimp only [Frame.act, ReqSectorMove.act]
          split <;> simp
      | _ => simp
  | chat k pc => exact inv.chat here done calm
  | complete sessionID k found pc =>
      cases pc with
      | sessionID =>
          refine look (by simp) ?_ inv.honest
          dsimp only [Frame.act, CompleteLogin.act]
          split <;> simp
      | closing =>
          refine look (by simp) ?_ inv.honest
          cases r
          · dsimp only [Frame.act, CompleteLogin.act]
            split <;> simp
          · simp
      | accounts => exact inv.accounts here done
      | isLogined => exact inv.isLogined here done
      | accountNo =>
          have top : p.1.top t = some (.complete sessionID k found .accountNo) :=
            Conf.top_of_here here
          rw [races, top] at calm
          simp only [decide_eq_false_iff_not, Nat.pos_iff_ne_zero, ne_eq, not_not] at calm
          exact inv.accountNo here done calm
      | id i => exact inv.id here done
      | nick i => exact inv.nick here done
      | send status => exact look (by simp) (by simp) inv.honest
      | invalid => cases done
  | fault => cases done

end ChatThreads

end ChattingServer
