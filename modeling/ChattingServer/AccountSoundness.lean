import ChattingServer.PublishedIdentity

/-!
# The account table while logins and leaves interleave

Every entry of `accounts` has an owner: a player that is mapped, or whose
`LeaveProc` has yet to clear its entry, and that has the account or is being
given it.  `strays` are the steps after which an entry has none: a second login
over a first, and a `LeaveProc` that passes by a login under way, or by
account 0.  Without them the table is sound whenever nothing is under way
(`accounts_sound_of_run`).
-/

namespace ChattingServer

namespace ChatThreads

/-- A `LeaveProc` or a `CompleteLogin` is under way. -/
@[simp] def Frame.underway : Frame → Nat
  | .erase _ => 1
  | .leave .. => 1
  | .acquire _ (.complete _) => 1
  | .acquired _ (.complete _) _ => 1
  | .complete .. => 1
  | _ => 0

/-- Every entry is that of a player that has joined and logged in with it. -/
def Sound (s : ChatServer) : Prop :=
  ∀ account sessionID, s.accounts account = some sessionID → ∃ p, s.players sessionID = some p ∧
    (s.player p).isLogined = true ∧ (s.player p).accountNo = account

/-! ## Places -/

/-- `LeaveProc` has yet to clear the entry of its session. -/
@[simp] def Frame.clearing (sessionID : UINT64) (p : Nat) : Frame → Nat
  | .leave sid q .isLogined => if sid = sessionID then share q p else 0
  | .leave sid q .accountNo => if sid = sessionID then share q p else 0
  | .leave sid q .accounts => if sid = sessionID then share q p else 0
  | _ => 0

/-- `CompleteLogin` has found the player open, and not inserted its account. -/
@[simp] def Frame.entering (p : Nat) : Frame → Nat
  | .complete _ q _ .accounts => share q p
  | _ => 0

/-- `CompleteLogin` has inserted this account, and not stored it. -/
@[simp] def Frame.insertingAs (p : Nat) (account : INT64) : Frame → Nat
  | .complete _ q found .isLogined => if found.account = account then share q p else 0
  | .complete _ q found .accountNo => if found.account = account then share q p else 0
  | _ => 0

/-- The step of the thread leaves an entry without an owner. -/
def strays (s : Conf Frame ChatServer) (t : Nat) : Bool :=
  match s.top t with
  | some (.complete sessionID p found .accounts) =>
      decide ((s.mem.player p).isLogined = true ∧
        s.mem.accounts (s.mem.player p).accountNo = some sessionID ∧
        (s.mem.player p).accountNo ≠ found.account)
  | some (.leave _ p .isLogined) =>
      decide ((s.mem.player p).isLogined = false ∧
        (0 < s.tally (Frame.entering p) ∨ 0 < s.tally (Frame.inserting p)))
  | some (.leave sessionID p .accountNo) =>
      decide ((s.mem.player p).accountNo = 0 ∧ (s.mem.accounts 0 = some sessionID ∨
        0 < s.tally (Frame.entering p) ∨ 0 < s.tally (Frame.inserting p)))
  | some (.leave _ p .accounts) =>
      decide (0 < s.tally (Frame.entering p) ∨
        0 < s.tally (Frame.insertingOther p (s.mem.player p).accountNo))
  | _ => false

/-! ## Owners -/

/-- The session of the player is not done with. -/
def Alive (s : Conf Frame ChatServer) (sessionID : UINT64) (p : Nat) : Prop :=
  s.mem.players sessionID = some p ∨ 0 < s.tally (Frame.clearing sessionID p)

/-- The player has the account, or is being given it. -/
def Keeps (s : Conf Frame ChatServer) (p : Nat) (account : INT64) : Prop :=
  0 < s.tally (Frame.insertingAs p account) ∨
    ((s.mem.player p).isLogined = true ∧ (s.mem.player p).accountNo = account ∧
      s.tally (Frame.inserting p) = 0)

/-- What a place in `CompleteLogin` relies on. -/
@[simp] def Frame.Backed (s : Conf Frame ChatServer) : Frame → Prop
  | .complete sessionID p _ .accounts => Alive s sessionID p
  | .complete _ p _ .accountNo => (s.mem.player p).isLogined = true
  | _ => True

structure Accounted (s : Conf Frame ChatServer) : Prop where
  owned : Owned s
  single : s.tally Frame.completes = 1
  entries : ∀ account sessionID, s.mem.accounts account = some sessionID →
    ∃ p, Alive s sessionID p ∧ Keeps s p account
  backed : ∀ stack ∈ s.threads, ∀ f ∈ stack, f.Backed s

variable {s s' : Conf Frame ChatServer} {m : ChatServer} {c : Choice}

theorem Frame.insertingAs_le (p : Nat) (account : INT64) (f : Frame) :
    f.insertingAs p account ≤ f.inserting p := by
  cases f with
  | complete sessionID q found pc =>
      cases pc with
      | isLogined | accountNo =>
          dsimp only [insertingAs, inserting]
          split
          · exact Nat.le_refl _
          · exact Nat.zero_le _
      | _ => exact Nat.zero_le _
  | _ => exact Nat.zero_le _

/-- With nothing under way, owners are players that have joined and logged in. -/
theorem Accounted.sound (inv : Accounted s) (idle : s.tally Frame.underway = 0) : Sound s.mem := by
  intro account sessionID entry
  obtain ⟨p, alive, keeps⟩ := inv.entries account sessionID entry
  have none : ∀ {w : Frame → Nat}, (∀ f : Frame, w f ≤ f.underway) → s.tally w = 0 := fun le =>
    Nat.eq_zero_of_le_zero (idle ▸ Conf.tally_le le)
  have clearing : s.tally (Frame.clearing sessionID p) = 0 := by
    refine none fun f => ?_
    cases f with
    | leave sid q pc =>
        have one : share q p ≤ 1 := share_le_one q p
        cases pc with
        | isLogined | accountNo | accounts =>
            dsimp only [Frame.clearing, Frame.underway]
            split <;> omega
        | _ => exact Nat.zero_le _
    | _ => exact Nat.zero_le _
  have inserting : s.tally (Frame.insertingAs p account) = 0 := by
    refine none fun f => ?_
    refine (f.insertingAs_le p account).trans ?_
    cases f with
    | complete sid q found pc => exact (Frame.weights_le _ p).2.1
    | _ => exact Nat.zero_le _
  rcases alive with joined | leaving
  · rcases keeps with busy | ⟨logined, same, -⟩
    · omega
    · exact ⟨p, joined, logined, same⟩
  · omega

/-! ## What a step leaves alone -/

/-- The places that change whether a player is logged in, or as whom. -/
@[simp] def Frame.Enrols : Frame → Prop
  | .complete _ _ _ .isLogined => True
  | .complete _ _ _ .accountNo => True
  | .join (.prepare ..) => True
  | _ => False

/-- A step from any other place leaves every player logged in or not, and as whom, as it
was. -/
theorem Frame.sameStanding {f : Frame} {r : f.act.α} (other : ¬ f.Enrols)
    (done : exec f.act.op c s.mem = some (r, m)) (q : PlayerPtr) :
    (m.player q).isLogined = (s.mem.player q).isLogined ∧
      (m.player q).accountNo = (s.mem.player q).accountNo := by
  have stores : ∀ {p : PlayerPtr} (store : Store) {r : Unit},
      exec (.store p store) c s.mem = some (r, m) →
      (store.apply (s.mem.player p)).isLogined = (s.mem.player p).isLogined →
      (store.apply (s.mem.player p)).accountNo = (s.mem.player p).accountNo →
      (m.player q).isLogined = (s.mem.player q).isLogined ∧
        (m.player q).accountNo = (s.mem.player q).accountNo := by
    intro p store r done isLogined accountNo
    obtain ⟨self, others⟩ := store_cases _ done
    rcases eq_or_ne q p with rfl | different
    · rw [self]
      exact ⟨isLogined, accountNo⟩
    · exact ⟨(others q different).isLogined, (others q different).accountNo⟩
  have looks : ¬ f.Writes → (m.player q).isLogined = (s.mem.player q).isLogined ∧
      (m.player q).accountNo = (s.mem.player q).accountNo := fun reads =>
    have face := Frame.sameFace reads done q
    ⟨face.isLogined, face.accountNo⟩
  cases f with
  | complete sessionID p found pc =>
      cases pc with
      | id i =>
          exact stores (.id i (charAt found.id i)) done (by simp only [Store.apply])
            (by simp only [Store.apply])
      | nick i =>
          exact stores (.nick i (charAt found.nick i)) done (by simp only [Store.apply])
            (by simp only [Store.apply])
      | accounts =>
          cases done
          exact ⟨rfl, rfl⟩
      | isLogined | accountNo => exact absurd trivial other
      | invalid => cases done
      | _ => exact looks (by simp)
  | join pc =>
      cases pc with
      | prepare now sessionID p => exact absurd trivial other
      | _ => exact looks (by simp)
  | _ => exact looks (by simp)

/-- The places that change the account table. -/
@[simp] def Frame.Lists : Frame → Prop
  | .complete _ _ _ .accounts => True
  | .leave _ _ .accounts => True
  | _ => False

@[simp] def Op.Lists : {α : Type} → Op α → Prop
  | _, .putAccount .. => True
  | _, .dropAccount .. => True
  | _, _ => False

theorem exec_accounts {α : Type} {op : Op α} {r : α} (other : ¬ op.Lists)
    (done : exec op c s.mem = some (r, m)) : m.accounts = s.mem.accounts := by
  cases op with
  | putAccount | dropAccount => exact absurd trivial other
  | popJob | find | emplace | erase =>
      dsimp only [exec] at done
      split at done <;> cases done <;> rfl
  | alloc =>
      have taken : s.mem.allocPlayer.2 = m := congrArg Prod.snd (Option.some.inj done)
      rw [← taken, ChatServer.allocPlayer]
      split <;> rfl
  | pushJob sessionID packet =>
      cases done
      unfold ChatServer.enqueueRedis
      split <;> rfl
  | sendLogin sessionID account status =>
      obtain ⟨res, rfl⟩ := exec_sendLogin done
      rfl
  | moveSector q ox oy x y =>
      cases done
      split <;> rfl
  | abort => cases done
  | _ =>
      cases done
      rfl

theorem Frame.not_lists {f : Frame} (other : ¬ f.Lists) : ¬ f.act.op.Lists := by
  cases f with
  | join pc => cases pc <;> exact not_false
  | leave sessionID q pc =>
      cases pc with
      | accounts => exact absurd trivial other
      | _ => exact not_false
  | login sessionID q packet pc => cases pc <;> exact not_false
  | move q req pc => cases pc <;> exact not_false
  | chat q pc => cases pc <;> exact not_false
  | complete sessionID q found pc =>
      cases pc with
      | accounts => exact absurd trivial other
      | _ => exact not_false
  | _ => exact not_false

/-- A step from any other place leaves the account table as it was. -/
theorem Frame.sameAccounts {f : Frame} {r : f.act.α} (other : ¬ f.Lists)
    (done : exec f.act.op c s.mem = some (r, m)) : m.accounts = s.mem.accounts :=
  exec_accounts (Frame.not_lists other) done

/-! ## What a step does to owners -/

section Step

variable {t : Nat} {f : Frame} {rest : List Frame} {r : f.act.α} (inv : Accounted s)
  (here : s.threads[t]? = some (f :: rest)) (done : exec f.act.op c s.mem = some (r, m))

include inv here in
theorem Accounted.fits : f.Fits s :=
  inv.owned.fits _ (List.mem_of_getElem? here) _ List.mem_cons_self

include here in
/-- A session is done with only when its `LeaveProc` passes the accounts. -/
theorem Alive.does {fs : List Frame} (does : Does s f fs m) {sessionID : UINT64} {p : Nat}
    (alive : Alive s sessionID p)
    (stays : f.clearing sessionID p ≤ (fs.map (Frame.clearing sessionID p)).sum) :
    Alive (after s t fs rest m) sessionID p := by
  have exchanged := tally_after m fs here (Frame.clearing sessionID p)
  rcases alive with joined | leaving
  · have keeps : m.players = s.mem.players → Alive (after s t fs rest m) sessionID p :=
      fun same => Or.inl ((congrFun same sessionID).trans joined)
    cases does with
    | calm calm _ _ _ => exact keeps calm.players
    | alloc => exact keeps (allocPlayer_cases Prod.mk.eta.symm).1
    | @publish sid q absent =>
        refine Or.inl ((Function.update_of_ne ?_ ..).trans joined)
        rintro rfl
        rw [absent] at joined
        cases joined
    | @erase sid q mapped =>
        rcases eq_or_ne sessionID sid with rfl | other
        · obtain rfl := Option.some.inj (mapped.symm.trans joined)
          refine Or.inr ?_
          rw [show ([Frame.leave sessionID q .isLogined, .release q].map
            (Frame.clearing sessionID q)).sum = 1 by simp [share_self]] at exchanged
          have none : Frame.clearing sessionID q (.erase sessionID) = 0 := rfl
          omega
        · exact Or.inl ((Function.update_of_ne other ..).trans joined)
    | _ => exact keeps rfl
  · exact Or.inr (by omega)

theorem Alive.published (owned : Owned s) {sessionID : UINT64} {p : Nat}
    (alive : Alive s sessionID p) : Published s p := by
  rcases alive with joined | leaving
  · exact (owned.mapped joined).1
  · obtain ⟨stack, member, f, inside, pos⟩ := Conf.exists_of_tally_pos leaving
    have fits := owned.fits stack member f inside
    cases f with
    | leave sid q pc =>
        cases pc with
        | isLogined | accountNo | accounts =>
            dsimp only [Frame.clearing] at pos
            split at pos
            · exact eq_of_share_pos pos ▸ fits.1
            · cases pos
        | _ => cases pos
    | _ => cases pos

/-- The places of `CompleteLogin` from `accounts` to the account of the player. -/
@[simp] def Frame.Inserts : Frame → Prop
  | .complete _ _ _ .accounts => True
  | .complete _ _ _ .isLogined => True
  | .complete _ _ _ .accountNo => True
  | _ => False

/-- A place outside that part of `CompleteLogin` is not inserting an account, nor does
it lead to one that is. -/
theorem Frame.inserting_next {f : Frame} (other : ¬ f.Inserts) (r : f.act.α) (p : Nat) :
    f.inserting p = 0 ∧ ((f.act.next r).map (Frame.inserting p)).sum = 0 := by
  have idle : f.Idle → f.inserting p = 0 ∧ ((f.act.next r).map (Frame.inserting p)).sum = 0 := by
    intro idle
    refine ⟨(idle.light.weights p).2.1, List.sum_eq_zero fun k member => ?_⟩
    obtain ⟨g, inside, rfl⟩ := List.mem_map.mp member
    exact ((idle.light_next r g inside).weights p).2.1
  cases f with
  | complete sessionID q found pc =>
      cases pc with
      | id i | nick i =>
          refine ⟨rfl, ?_⟩
          dsimp only [Frame.act, CompleteLogin.act]
          split
          · rfl
          · split <;> rfl
      | invalid => exact ⟨rfl, rfl⟩
      | accounts | isLogined | accountNo => exact absurd trivial other
      | _ =>
          refine idle ?_
          rintro _ _ _ _ ⟨⟩
          simp
  | _ =>
      refine idle ?_
      rintro _ _ _ _ ⟨⟩

variable (m r) in
include here in
theorem inserting_after (other : ¬ f.Inserts) (p : Nat) (account : INT64) :
    (after s t (f.act.next r) rest m).tally (Frame.inserting p) = s.tally (Frame.inserting p) ∧
      (after s t (f.act.next r) rest m).tally (Frame.insertingAs p account) =
        s.tally (Frame.insertingAs p account) := by
  obtain ⟨own, new⟩ := Frame.inserting_next other r p
  have moved := tally_after m (f.act.next r) here (Frame.inserting p)
  have moved' := tally_after m (f.act.next r) here (Frame.insertingAs p account)
  have own' := Frame.insertingAs_le p account f
  have new' : ((f.act.next r).map (Frame.insertingAs p account)).sum ≤
      ((f.act.next r).map (Frame.inserting p)).sum :=
    List.sum_le_sum fun g _ => Frame.insertingAs_le p account g
  omega

theorem Keeps.same {p : Nat} {account : INT64} (keeps : Keeps s p account)
    (isLogined : (s'.mem.player p).isLogined = (s.mem.player p).isLogined)
    (accountNo : (s'.mem.player p).accountNo = (s.mem.player p).accountNo)
    (inserting : s'.tally (Frame.inserting p) = s.tally (Frame.inserting p))
    (insertingAs : s'.tally (Frame.insertingAs p account) = s.tally (Frame.insertingAs p account)) :
    Keeps s' p account := by
  rcases keeps with busy | ⟨logined, same, idle⟩
  · exact Or.inl (insertingAs.symm ▸ busy)
  · exact Or.inr ⟨isLogined.trans logined, accountNo.trans same, inserting.trans idle⟩

include inv here done in
/-- What there is to show of a step. -/
theorem Accounted.next
    (entries : ∀ account sessionID, m.accounts account = some sessionID →
      ∃ p, Alive (after s t (f.act.next r) rest m) sessionID p ∧
        Keeps (after s t (f.act.next r) rest m) p account)
    (alive : f.completes = 0 → ∀ sessionID p, 0 < s.tally (Frame.entering p) →
      Alive s sessionID p → Alive (after s t (f.act.next r) rest m) sessionID p)
    (logined : ∀ p, Published s p → (s.mem.player p).isLogined = true →
      (m.player p).isLogined = true)
    (backed : ∀ g ∈ f.act.next r, g.Backed (after s t (f.act.next r) rest m)) :
    Accounted (after s t (f.act.next r) rest m) where
  owned := owned_does inv.owned here (Frame.does (inv.fits here) done)
  single := (completes_after here done).trans inv.single
  entries := entries
  backed := by
    refine Machine.forall_frames_step here backed fun stack member g inside => ?_
    obtain ⟨stack', old, inside'⟩ := Machine.exists_of_stayed here member inside
    have both := Machine.add_le_tally Frame.completes here member inside
    have single := inv.single
    have before := inv.backed stack' old g inside'
    have fits := inv.owned.fits stack' old g inside'
    have part := fun w => Conf.le_tally (w := w) old inside'
    cases g with
    | complete sessionID p found pc =>
        have one : Frame.completes (.complete sessionID p found pc) = 1 := rfl
        cases pc with
        | accounts =>
            refine alive (by omega) sessionID p ?_ before
            refine Nat.lt_of_lt_of_le ?_ (part (Frame.entering p))
            simp [share_self]
        | accountNo => exact logined p fits.1 before
        | _ => trivial
    | _ => trivial

include here done in
theorem sameStanding_of_published (other : ¬ f.Inserts) {p : Nat} (pub : Published s p) :
    (m.player p).isLogined = (s.mem.player p).isLogined ∧
      (m.player p).accountNo = (s.mem.player p).accountNo := by
  have stands := fun enrols => Frame.sameStanding (f := f) enrols done p
  cases f with
  | join pc =>
      cases pc with
      | prepare now sessionID q =>
          have different : p ≠ q := by
            rintro rfl
            refine not_published_of_fresh (p := p) (List.mem_of_getElem? here)
              List.mem_cons_self ?_ pub
            rw [show Frame.fresh p (.join (.prepare now sessionID p)) = 1 from share_self p]
            exact Nat.one_pos
          have face := (store_cases _ done).2 p different
          exact ⟨face.isLogined, face.accountNo⟩
      | _ => exact stands (by simp)
  | complete sessionID q found pc =>
      cases pc with
      | accounts | isLogined | accountNo => exact absurd trivial other
      | _ => exact stands (by simp)
  | _ => exact stands (by simp)

include inv here done in
/-- A step that neither enters nor clears anything. -/
theorem Accounted.quiet (inserts : ¬ f.Inserts) (lists : ¬ f.Lists)
    (stays : ∀ sessionID p, f.clearing sessionID p ≤
      ((f.act.next r).map (Frame.clearing sessionID p)).sum)
    (backed : ∀ g ∈ f.act.next r, g.Backed (after s t (f.act.next r) rest m)) :
    Accounted (after s t (f.act.next r) rest m) := by
  have does := Frame.does (inv.fits here) done
  refine inv.next here done (fun account sessionID entry => ?_) (fun _ sessionID p _ alive => ?_)
    (fun p pub logined => ?_) backed
  · rw [Frame.sameAccounts lists done] at entry
    obtain ⟨p, alive, keeps⟩ := inv.entries account sessionID entry
    obtain ⟨isLogined, accountNo⟩ :=
      sameStanding_of_published here done inserts (alive.published inv.owned)
    obtain ⟨inserting, insertingAs⟩ := inserting_after m r here inserts p account
    exact ⟨p, alive.does here does (stays sessionID p),
      keeps.same isLogined accountNo inserting insertingAs⟩
  · exact alive.does here does (stays sessionID p)
  · exact (sameStanding_of_published here done inserts pub).1.trans logined

end Step

/-! ## `LeaveProc` -/

section Leave

variable {t : Nat} {rest : List Frame} {sessionID : UINT64} {p : PlayerPtr}

/-- Who is alive is in the hands of its own session. -/
theorem Alive.session (owned : Owned s) {sid : UINT64} {q : Nat} (alive : Alive s sid q) :
    (s.mem.player q).sessionID = sid := by
  rcases alive with joined | leaving
  · exact (owned.mapped joined).2.1
  · obtain ⟨stack, member, f, inside, pos⟩ := Conf.exists_of_tally_pos leaving
    have fits := owned.fits stack member f inside
    cases f with
    | leave sid' k pc =>
        cases pc with
        | isLogined | accountNo | accounts =>
            dsimp only [Frame.clearing] at pos
            split at pos
            · rename_i same
              exact same ▸ eq_of_share_pos pos ▸ fits.2.1
            · cases pos
        | _ => cases pos
    | _ => cases pos

/-- A `LeaveProc` passes the accounts: what its player owned is no entry, and
its `CompleteLogin` is not about to make one. -/
theorem Accounted.passes {pc : LeaveProc} {r : (Frame.act (.leave sessionID p pc)).α}
    (inv : Accounted s) (here : s.threads[t]? = some (.leave sessionID p pc :: rest))
    (done : exec (Frame.act (.leave sessionID p pc)).op c s.mem = some (r, m))
    (fewer : ∀ account sid, m.accounts account = some sid → s.mem.accounts account = some sid)
    (unowned : ∀ account, m.accounts account = some sessionID → ¬ Keeps s p account)
    (unentered : s.tally (Frame.entering p) = 0)
    (backed : ∀ g ∈ (Frame.act (.leave sessionID p pc)).next r,
      g.Backed (after s t ((Frame.act (.leave sessionID p pc)).next r) rest m)) :
    Accounted (after s t ((Frame.act (.leave sessionID p pc)).next r) rest m) := by
  have does := Frame.does (inv.fits here) done
  have session : (s.mem.player p).sessionID = sessionID := (inv.fits here).2.1
  have stays : ∀ {sid : UINT64} {q : Nat}, q ≠ p → Alive s sid q →
      Alive (after s t ((Frame.act (.leave sessionID p pc)).next r) rest m) sid q := by
    intro sid q other alive
    refine alive.does here does (le_of_eq_of_le ?_ (Nat.zero_le _))
    have elsewhere : share p q = 0 := share_of_ne other.symm
    cases pc <;> simp [elsewhere]
  refine inv.next here done (fun account sid entry => ?_) (fun _ sid q entering alive => ?_)
    (fun q pub logined => ?_) backed
  · obtain ⟨q, alive, keeps⟩ := inv.entries account sid (fewer account sid entry)
    have other : q ≠ p := by
      rintro rfl
      obtain rfl := (alive.session inv.owned).symm.trans session
      exact unowned account entry keeps
    obtain ⟨isLogined, accountNo⟩ :=
      sameStanding_of_published here done (by simp) (alive.published inv.owned)
    obtain ⟨inserting, insertingAs⟩ :=
      inserting_after m r here (by simp) q account
    exact ⟨q, stays other alive, keeps.same isLogined accountNo inserting insertingAs⟩
  · refine stays ?_ alive
    rintro rfl
    omega
  · exact (sameStanding_of_published here done (by simp) pub).1.trans logined

/-- What is being inserted for a player that is not logged in. -/
theorem Keeps.inserting {account : INT64} (keeps : Keeps s p account)
    (other : (s.mem.player p).isLogined = true → (s.mem.player p).accountNo ≠ account) :
    0 < s.tally (Frame.inserting p) := by
  rcases keeps with busy | ⟨logined, same, -⟩
  · exact busy.trans_le (Conf.tally_le (Frame.insertingAs_le p account))
  · exact absurd same (other logined)

/-- What a player keeps is its own account, if no other is being inserted for it. -/
theorem Keeps.account_eq {account : INT64} (keeps : Keeps s p account)
    (own : s.tally (Frame.insertingOther p (s.mem.player p).accountNo) = 0) :
    account = (s.mem.player p).accountNo := by
  rcases keeps with busy | ⟨-, same, -⟩
  · by_contra other
    have le : s.tally (Frame.insertingAs p account) ≤
        s.tally (Frame.insertingOther p (s.mem.player p).accountNo) := by
      refine Conf.tally_le fun f => ?_
      cases f with
      | complete sid q found pc =>
          cases pc with
          | isLogined | accountNo =>
              dsimp only [Frame.insertingAs, Frame.insertingOther]
              split
              · rename_i same
                rw [if_neg (same ▸ other)]
              · exact Nat.zero_le _
          | _ => exact Nat.zero_le _
      | _ => exact Nat.zero_le _
    omega
  · exact same.symm

/-- The second region of `LeaveProc` leaves its session no entry under the
player's account, and adds none. -/
theorem dropAccount_cases {r : Unit}
    (done : exec (.dropAccount sessionID p) c s.mem = some (r, m)) :
    (∀ account sid, m.accounts account = some sid → s.mem.accounts account = some sid) ∧
      m.accounts (s.mem.player p).accountNo ≠ some sessionID := by
  dsimp only [exec] at done
  split at done
  · cases done
    refine ⟨fun account sid entry => ?_, ?_⟩
    · rcases eq_or_ne account (s.mem.player p).accountNo with rfl | other
      · cases (Function.update_self ..).symm.trans entry
      · exact (Function.update_of_ne other ..).symm.trans entry
    · intro entry
      cases (Function.update_self ..).symm.trans entry
  · rename_i absent
    cases done
    exact ⟨fun _ _ entry => entry, absent⟩

/-- A step of `LeaveProc`. -/
theorem Accounted.leave {pc : LeaveProc} {r : (Frame.act (.leave sessionID p pc)).α}
    (inv : Accounted s) (here : s.threads[t]? = some (.leave sessionID p pc :: rest))
    (done : exec (Frame.act (.leave sessionID p pc)).op c s.mem = some (r, m))
    (tidy : strays s t = false) :
    Accounted (after s t ((Frame.act (.leave sessionID p pc)).next r) rest m) := by
  have top : s.top t = some (.leave sessionID p pc) := Conf.top_of_here here
  rw [strays, top] at tidy
  have quiet := inv.quiet here done (by simp)
  cases pc with
  | isLogined =>
      obtain ⟨looked, rfl⟩ := exec_load done
      cases r with
      | true => exact quiet (by simp) (by simp) (by simp)
      | false =>
          simp only [decide_eq_false_iff_not, not_and, not_or, Nat.pos_iff_ne_zero, ne_eq,
            not_not] at tidy
          obtain ⟨unentered, idle⟩ := tidy looked
          refine inv.passes here done (fun _ _ entry => entry) (fun account _ keeps => ?_)
            unentered (by simp)
          have busy := keeps.inserting fun logined => by
            rw [looked] at logined
            cases logined
          omega
  | accountNo =>
      obtain ⟨account, rfl⟩ : ∃ account : INT64, account = r := ⟨r, rfl⟩
      obtain ⟨looked, rfl⟩ := exec_load done
      by_cases zero : account = 0
      · simp only [decide_eq_false_iff_not, not_and, not_or, Nat.pos_iff_ne_zero, ne_eq,
          not_not] at tidy
        obtain ⟨unlisted, unentered, idle⟩ := tidy (looked.trans zero)
        refine inv.passes here done (fun _ _ entry => entry) (fun other entry keeps => ?_)
          unentered ?_
        · have busy := keeps.inserting fun _ same => by
            rw [← same, looked, zero] at entry
            exact unlisted entry
          omega
        · dsimp only [Frame.act, LeaveProc.act]
          split <;> simp
      · have next : (Frame.act (.leave sessionID p .accountNo)).next account =
            [.leave sessionID p .accounts] := if_pos zero
        refine quiet (by simp) ?_ ?_
        · intro sid q
          rw [next]
          simp
        · rw [next]
          simp
  | accounts =>
      simp only [decide_eq_false_iff_not, not_or, Nat.pos_iff_ne_zero, ne_eq, not_not] at tidy
      obtain ⟨unentered, own⟩ := tidy
      obtain ⟨fewer, gone⟩ := dropAccount_cases done
      refine inv.passes here done fewer (fun account entry keeps => ?_) unentered (by simp)
      rw [keeps.account_eq own] at entry
      exact gone entry
  | sectorY x =>
      refine quiet (by simp) ?_ ?_
      · intro sid q
        exact Nat.zero_le _
      · dsimp only [Frame.act, LeaveProc.act]
        split <;> simp
  | _ => exact quiet (by simp) (by simp) (by simp)

end Leave

/-! ## `CompleteLogin` -/

section Complete

variable {t : Nat} {rest : List Frame} {sessionID : UINT64} {p : PlayerPtr} {found : Login}
  {pc pc' : CompleteLogin} {r : (Frame.act (.complete sessionID p found pc)).α}

/-- A step of `CompleteLogin` on its player, from place to place. -/
theorem Accounted.goesOn (pc' : CompleteLogin) (inv : Accounted s)
    (here : s.threads[t]? = some (.complete sessionID p found pc :: rest))
    (done : exec (Frame.act (.complete sessionID p found pc)).op c s.mem = some (r, m))
    (next : (Frame.act (.complete sessionID p found pc)).next r =
      [.complete sessionID p found pc'])
    (others : ∀ q, q ≠ p → SameFace (m.player q) (s.mem.player q))
    (logined : (s.mem.player p).isLogined = true → (m.player p).isLogined = true)
    (entries : ∀ account sid, m.accounts account = some sid →
      (s.mem.accounts account = some sid ∨ account = found.account ∧ sid = sessionID ∧
        Alive s sessionID p))
    (keeps : ∀ account, m.accounts account = some sessionID →
      Keeps s p account ∨ account = found.account → Keeps (after s t
        ((Frame.act (.complete sessionID p found pc)).next r) rest m) p account)
    (backed : (Frame.complete sessionID p found pc').Backed
      (after s t ((Frame.act (.complete sessionID p found pc)).next r) rest m)) :
    Accounted (after s t ((Frame.act (.complete sessionID p found pc)).next r) rest m) := by
  have does := Frame.does (inv.fits here) done
  have session : (s.mem.player p).sessionID = sessionID := (inv.fits here).2
  have alive : ∀ {sid : UINT64} {q : Nat}, Alive s sid q →
      Alive (after s t ((Frame.act (.complete sessionID p found pc)).next r) rest m) sid q :=
    fun alive => alive.does here does (Nat.zero_le _)
  refine inv.next here done (fun account sid entry => ?_) (fun none => by cases none)
    (fun q _ before => ?_) (fun g member => ?_)
  · rcases entries account sid entry with old | ⟨rfl, rfl, here'⟩
    · obtain ⟨q, alive', keeps'⟩ := inv.entries account sid old
      refine ⟨q, alive alive', ?_⟩
      rcases eq_or_ne q p with rfl | other
      · obtain rfl := (alive'.session inv.owned).symm.trans session
        exact keeps account entry (Or.inl keeps')
      · have elsewhere : share p q = 0 := share_of_ne other.symm
        have same : ∀ {w : Frame → Nat}, (∀ g : Frame, w g ≤ g.completes) →
            (∀ pc, w (.complete sessionID p found pc) = 0) →
            (after s t ((Frame.act (.complete sessionID p found pc)).next r) rest m).tally w =
              s.tally w := by
          intro w le on
          obtain ⟨before, now⟩ := tally_alone inv.single here rfl le
            ((Frame.act (.complete sessionID p found pc)).next r) m
          rw [before, now, on, next, List.map_singleton, List.sum_singleton, on]
        refine keeps'.same (others q other).isLogined (others q other).accountNo
          (same (fun g => (g.weights_le q).2.1) fun pc => ?_)
          (same (fun g => (g.insertingAs_le q account).trans (g.weights_le q).2.1) fun pc => ?_)
        · cases pc <;> simp [elsewhere]
        · cases pc <;> simp [elsewhere]
    · exact ⟨p, alive here', keeps _ entry (Or.inr rfl)⟩
  · rcases eq_or_ne q p with rfl | other
    · exact logined before
    · exact (others q other).isLogined.trans before
  · rw [next] at member
    rw [List.mem_singleton.mp member]
    exact backed

/-- How much is being inserted for the player of a `CompleteLogin`, before its
step and behind it. -/
theorem Accounted.inserting_self (pc' : CompleteLogin) (inv : Accounted s)
    (here : s.threads[t]? = some (.complete sessionID p found pc :: rest))
    (next : (Frame.act (.complete sessionID p found pc)).next r =
      [.complete sessionID p found pc']) (account : INT64) :
    s.tally (Frame.inserting p) = Frame.inserting p (.complete sessionID p found pc) ∧
      s.tally (Frame.insertingAs p account) =
        Frame.insertingAs p account (.complete sessionID p found pc) ∧
      (after s t ((Frame.act (.complete sessionID p found pc)).next r) rest m).tally
        (Frame.inserting p) = Frame.inserting p (.complete sessionID p found pc') ∧
      (after s t ((Frame.act (.complete sessionID p found pc)).next r) rest m).tally
        (Frame.insertingAs p account) =
          Frame.insertingAs p account (.complete sessionID p found pc') := by
  have inserting := tally_alone inv.single here rfl (fun g => (g.weights_le p).2.1)
    [.complete sessionID p found pc'] m
  have insertingAs := tally_alone inv.single here rfl
    (fun g => (g.insertingAs_le p account).trans (g.weights_le p).2.1)
    [.complete sessionID p found pc'] m
  rw [next]
  exact ⟨inserting.1, insertingAs.1, inserting.2, insertingAs.2⟩

end Complete

section Stores

variable {t : Nat} {rest : List Frame} {sessionID : UINT64} {p : PlayerPtr} {found : Login}

theorem Accounted.accounts {r : (Frame.act (.complete sessionID p found .accounts)).α}
    (inv : Accounted s)
    (here : s.threads[t]? = some (.complete sessionID p found .accounts :: rest))
    (done : exec (Frame.act (.complete sessionID p found .accounts)).op c s.mem = some (r, m))
    (tidy : strays s t = false) :
    Accounted (after s t ((Frame.act (.complete sessionID p found .accounts)).next r) rest m) := by
  have top : s.top t = some (.complete sessionID p found .accounts) := Conf.top_of_here here
  have alive : Alive s sessionID p :=
    inv.backed _ (List.mem_of_getElem? here) _ List.mem_cons_self
  have counts := inv.inserting_self .isLogined (m := m) (r := r) here rfl
  rw [strays, top] at tidy
  simp only [decide_eq_false_iff_not, not_and, ne_eq, not_not] at tidy
  have table : m.accounts = Function.update s.mem.accounts found.account (some sessionID) := by
    cases done
    rfl
  have players : m.player = s.mem.player := by
    cases done
    rfl
  refine inv.goesOn .isLogined here done rfl (fun q _ => players ▸ .refl _)
    (fun logined => players ▸ logined) (fun account sid entry => ?_) (fun account entry kept => ?_)
    trivial
  · rw [table] at entry
    rcases eq_or_ne account found.account with rfl | other
    · rw [Function.update_self] at entry
      exact Or.inr ⟨rfl, (Option.some.inj entry).symm, alive⟩
    · rw [Function.update_of_ne other] at entry
      exact Or.inl entry
  · obtain ⟨-, before, -, now⟩ := counts account
    by_cases same : found.account = account
    · refine Or.inl ?_
      rw [now]
      simp [same, share_self]
    · -- a player that is logged in keeps no other account
      rcases kept with (busy | ⟨logined, rfl, -⟩) | rfl
      · rw [before] at busy
        cases busy
      · rw [table, Function.update_of_ne (Ne.symm same)] at entry
        exact absurd (tidy logined entry).symm same
      · exact absurd rfl same

theorem Accounted.isLogined {r : (Frame.act (.complete sessionID p found .isLogined)).α}
    (inv : Accounted s)
    (here : s.threads[t]? = some (.complete sessionID p found .isLogined :: rest))
    (done : exec (Frame.act (.complete sessionID p found .isLogined)).op c s.mem = some (r, m)) :
    Accounted (after s t ((Frame.act (.complete sessionID p found .isLogined)).next r) rest m) := by
  obtain ⟨self, others⟩ := store_cases _ done
  have logined : (m.player p).isLogined = true := congrArg Player.isLogined self
  refine inv.goesOn .accountNo here done rfl others (fun _ => logined)
    (fun account sid entry => Or.inl ?_) (fun account _ kept => ?_) logined
  · rw [Frame.sameAccounts (by simp) done] at entry
    exact entry
  · obtain ⟨inserting, before, -, now⟩ :=
      inv.inserting_self .accountNo (m := m) (r := r) here rfl account
    refine Or.inl ?_
    rw [now]
    rcases kept with (busy | ⟨-, -, idle⟩) | rfl
    · exact before ▸ busy
    · rw [inserting] at idle
      exact absurd idle (by simp [share_self])
    · simp [share_self]

theorem Accounted.accountNo {r : (Frame.act (.complete sessionID p found .accountNo)).α}
    (inv : Accounted s)
    (here : s.threads[t]? = some (.complete sessionID p found .accountNo :: rest))
    (done : exec (Frame.act (.complete sessionID p found .accountNo)).op c s.mem = some (r, m)) :
    Accounted (after s t ((Frame.act (.complete sessionID p found .accountNo)).next r) rest m) := by
  have logined : (s.mem.player p).isLogined = true :=
    inv.backed _ (List.mem_of_getElem? here) _ List.mem_cons_self
  obtain ⟨self, others⟩ := store_cases _ done
  refine inv.goesOn (.id 0) here done rfl others
    (fun before => (congrArg Player.isLogined self).trans before)
    (fun account sid entry => Or.inl ?_) (fun account _ kept => ?_) trivial
  · rw [Frame.sameAccounts (by simp) done] at entry
    exact entry
  · obtain ⟨inserting, before, now, -⟩ :=
      inv.inserting_self (.id 0) (m := m) (r := r) here rfl account
    have same : found.account = account := by
      rcases kept with (busy | ⟨-, -, idle⟩) | rfl
      · by_contra other
        rw [before] at busy
        simp [other] at busy
      · rw [inserting] at idle
        exact absurd idle (by simp [share_self])
      · rfl
    exact Or.inr ⟨(congrArg Player.isLogined self).trans logined,
      (congrArg Player.accountNo self).trans same, now⟩

end Stores

theorem Frame.Started.backed {f : Frame} (started : f.Started) : f.Backed s := by
  cases f with
  | complete sessionID p found pc =>
      cases started
      trivial
  | _ => trivial

/-- A step of `CompleteLogin`. -/
theorem Accounted.complete {t : Nat} {rest : List Frame} {sessionID : UINT64} {p : PlayerPtr}
    {found : Login} {pc : CompleteLogin} {r : (Frame.act (.complete sessionID p found pc)).α}
    (inv : Accounted s) (here : s.threads[t]? = some (.complete sessionID p found pc :: rest))
    (done : exec (Frame.act (.complete sessionID p found pc)).op c s.mem = some (r, m))
    (tidy : strays s t = false) :
    Accounted (after s t ((Frame.act (.complete sessionID p found pc)).next r) rest m) := by
  have quiet := fun inserts lists => inv.quiet here done inserts lists fun _ _ => Nat.zero_le _
  cases pc with
  | sessionID =>
      refine quiet (by simp) (by simp) ?_
      dsimp only [Frame.act, CompleteLogin.act]
      split <;> simp
  | closing =>
      obtain ⟨looked, same⟩ := exec_load done
      refine quiet (by simp) (by simp) ?_
      cases r with
      | true => simp
      | false =>
          -- an open player is mapped
          obtain ⟨pub, session⟩ := inv.fits here
          have joined := inv.owned.opens pub looked
          dsimp only [Frame.act, CompleteLogin.act]
          split
          · intro g member
            rw [List.mem_singleton.mp member]
            exact Or.inl (session ▸ same ▸ joined)
          · simp
  | accounts => exact inv.accounts here done tidy
  | isLogined => exact inv.isLogined here done
  | accountNo => exact inv.accountNo here done
  | id i | nick i =>
      refine quiet (by simp) (by simp) ?_
      dsimp only [Frame.act, CompleteLogin.act]
      split
      · simp
      · split <;> simp
  | send status => exact quiet (by simp) (by simp) (by simp)
  | invalid => cases done

/-- A step keeps the invariant, unless it strays. -/
theorem Accounted.step {t : Nat} (inv : Accounted s) (tidy : strays s t = false)
    (step : chatServer.step s t c = some s') : Accounted s' := by
  obtain ⟨f, rest, r, m, here, done, rfl⟩ := chat_step_cases step
  cases f with
  | complete sessionID p found pc => exact inv.complete here done tidy
  | leave sessionID p pc => exact inv.leave here done tidy
  | _ =>
      refine inv.quiet here done (by simp) (by simp) (fun _ _ => Nat.zero_le _) fun g member =>
        (Frame.started_next r ?_ g member).backed
      rintro _ _ _ _ ⟨⟩

theorem accounted_boot (workers : Nat) : Accounted (boot 1 workers) where
  owned := owned_boot 1 workers
  single := completes_boot 1 workers
  entries := by
    intro account sessionID entry
    cases entry
  backed := by
    intro stack member f inside
    rcases mem_boot member with rfl | rfl <;>
      · rw [List.mem_singleton.mp inside]
        trivial

/-- **The account table is sound** whenever no login is being completed and
nobody is leaving, with one `RedisThread` and any workers, in every run without
steps that stray. -/
theorem accounts_sound_of_run {workers : Nat} {s : Conf Frame ChatServer}
    (run : chatServer.Steps (fun s t _ => strays s t = false) (boot 1 workers) s)
    (idle : s.tally Frame.underway = 0) : Sound s.mem := by
  have inv : Accounted s := run.invariant (I := Accounted) (accounted_boot workers)
    fun _ _ _ _ before tidy step => before.step tidy step
  exact inv.sound idle

/-- A session joins and asks for these accounts, and `RedisThread` completes
every login. -/
def logins (accounts : List INT64) : List (Nat × Choice) :=
  let env : Env := ⟨0, 0, 0, 0, fun _ => 0⟩
  let calls (call : Call) : Nat × Choice := (1, ⟨call, true, 0, 100⟩)
  List.replicate 4 (calls (.join 5 1)) ++
    (accounts.flatMap fun account => List.replicate 10 (calls (.recv env 100 1
      (CPacket.received 0 (bytesOf en_PACKET_CS_CHAT_REQ_LOGIN ++ bytesOf account ++
        List.replicate 144 0))))) ++
    List.replicate (12 * accounts.length) (0, ⟨.leave 1, true, 0, 100⟩)

/-- A worker lets session 1 leave. -/
def leaves : List (Nat × Choice) := List.replicate 9 (1, ⟨.leave 1, true, 0, 100⟩)

/-- A login is completed and has its entry; when the session has left, the entry
is gone. -/
theorem accounts_sound_of_run_leave :
    ∃ s s', chatServer.Steps (fun s t _ => strays s t = false) (boot 1 1) s ∧
      s.mem.accounts 7 = some 1 ∧ Sound s.mem ∧
      chatServer.Steps (fun s t _ => strays s t = false) s s' ∧
      s'.mem.accounts 7 = none ∧ Sound s'.mem := by
  have reached : (chatServer.runIf (fun s t _ => strays s t = false) (logins [7])
      (boot 1 1)).bind (fun s => (chatServer.runIf (fun s t _ => strays s t = false) leaves s).map
        fun s' => ((s.tally Frame.underway, s.mem.accounts 7),
          s'.tally Frame.underway, s'.mem.accounts 7)) = some ((0, some 1), 0, none) := by
    decide +kernel
  obtain ⟨s, login, rest⟩ := Option.bind_eq_some_iff.mp reached
  obtain ⟨s', leave, found⟩ := Option.map_eq_some_iff.mp rest
  simp only [Prod.mk.injEq] at found
  obtain ⟨⟨idle, entry⟩, idle', gone⟩ := found
  have steps := Machine.Steps.of_runIf login
  have later := Machine.Steps.of_runIf leave
  exact ⟨s, s', steps, entry, accounts_sound_of_run steps idle, later, gone,
    accounts_sound_of_run (steps.trans later) idle'⟩

/-- Two logins of one session, both accepted before either is completed: the
first one's entry outlives the session. -/
theorem accounts_stale :
    ¬ ∀ workers s, chatServer.Steps (fun _ _ _ => True) (boot 1 workers) s →
      s.tally Frame.underway = 0 → Sound s.mem := by
  intro all
  have reached : (chatServer.run (logins [7, 8] ++ leaves) (boot 1 1)).map (fun s =>
        (s.tally Frame.underway, s.mem.accounts 7, s.mem.players 1)) =
        some (0, some 1, none) := by decide +kernel
  obtain ⟨s, run, found⟩ := Option.map_eq_some_iff.mp reached
  simp only [Prod.mk.injEq] at found
  obtain ⟨idle, entry, left⟩ := found
  obtain ⟨p, joined, -⟩ := all 1 s (Machine.Steps.of_run run) idle 7 1 entry
  cases left.symm.trans joined

end ChatThreads

end ChattingServer
