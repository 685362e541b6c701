import ChattingServer.ChatLocks

/-!
# No deadlock

A thread holds the locks of one region at a time, and two sectors only in the
order of their `lockIndex`.  `Inside` are the places in a region, with the locks
that a thread holds there; outside it holds none.  So no threads wait for one
another (`deadlock_free`), and of those that are waited for one goes on
(`holder_not_blocked`).

`UnlockSectorExclusive` in `LeaveProc` is for the sector that the player is in by
then, which is the locked one unless a move has `overtaken` it.
-/

namespace ChattingServer

namespace ChatLocks

/-- The sector of lowest `lockIndex` first. -/
def Lock.rank : Lock → Nat
  | .sector cell => lockIndex cell
  | _ => 0

/-- Who holds what: the record of the acquisitions and releases. -/
def note (t : Nat) (f : Frame) (_ : List Frame) (_ : f.act.α) (h : Holdings (Lock × Mode)) :
    Holdings (Lock × Mode) :=
  match f with
  | .lock l mode => h.acquire t (l, mode)
  | .unlock l mode => h.release t (l, mode)
  | _ => h

/-- What `LeaveProc` is about to read of its player for `UnlockSectorExclusive`
is no longer what it read for `LockSectorExclusive`. -/
def overtaken (s : Conf Frame Shared) (t : Nat) : Bool :=
  match s.top t with
  | some (.dropSector player (.unlockX x _)) => decide ((s.mem.chat.player player).sectorX ≠ x)
  | some (.dropSector player (.unlockY _ y _)) => decide ((s.mem.chat.player player).sectorY ≠ y)
  | _ => false

/-- The place is in no lock region. -/
def Frame.Outside : Frame → Prop
  | .chat _ => True
  | .dropSector _ .lockX => True
  | .dropSector _ (.lockY _) => True
  | .index => True
  | .checkTimeOut _ => True
  | .session => True
  | .worker => True
  | _ => False

/-- The region that the work belongs to. -/
def Frame.region : Frame → Option Region
  | .work f => ChatLocks.region f
  | .dropSector _ (.erase x y) => some (.one (sectorLock x y) .exclusive)
  | .indexStack => some (.one .index .exclusive)
  | .players _ => some (.one .player .shared)
  | _ => none

/-! ## Regions -/

/-- Locks are acquired in increasing rank, and all of them are released. -/
structure Region.Orderly (R : Region) : Prop where
  increasing : (R.acquires.map fun lock => lock.1.rank).Pairwise (· < ·)
  balanced : R.releases.Perm R.acquires

theorem Region.orderly_one (l : Lock) (mode : Mode) : (Region.one l mode).Orderly :=
  ⟨List.pairwise_singleton _ _, .refl _⟩

theorem rank_sectorLock (x y : WORD) : (sectorLock x y).rank = lockIndex (x.toNat, y.toNat) := rfl

/-- The two sectors of a move, or the one, are locked in order and unlocked. -/
theorem orderly_moveRegion (ox oy x y : WORD) : (moveRegion ox oy x y).Orderly := by
  unfold moveRegion
  split
  · refine ⟨?_, ?_⟩
    · simp only [List.map_map, Function.comp_def, lockTwoSectorsExclusive]
      split_ifs with same less
      · exact List.pairwise_singleton _ _
      · exact List.pairwise_pair.mpr less
      · exact List.pairwise_pair.mpr (by simp only [rank_sectorLock]; omega)
    · apply List.Perm.map
      simp only [lockTwoSectorsExclusive, unlockTwoSectorsExclusive]
      split_ifs
      · exact .refl _
      · exact .refl _
      · exact .swap _ _ _
  · exact Region.orderly_one _ _

theorem orderly_work {f : ChatThreads.Frame} {R : Region} (found : region f = some R) :
    R.Orderly := by
  unfold region at found
  split at found <;> cases found
  all_goals first
    | exact Region.orderly_one _ _
    | exact orderly_moveRegion _ _ _ _

theorem orderly_region {w : Frame} {R : Region} (region : w.region = some R) : R.Orderly := by
  cases w with
  | work f => exact orderly_work region
  | dropSector player pc =>
      cases pc with
      | erase x y =>
          cases region
          exact Region.orderly_one _ _
      | _ => cases region
  | indexStack =>
      cases region
      exact Region.orderly_one _ _
  | players now =>
      cases region
      exact Region.orderly_one _ _
  | _ => cases region

/-- The places in a region, with the locks held there: on the way in, some of
them acquired; on the way out; and where `LeaveProc` reads the sector to unlock. -/
inductive Inside : List (Lock × Mode) → List Frame → Prop
  | outside : Inside [] []
  | entering {w : Frame} {R : Region} {done todo : List (Lock × Mode)} (work : w.region = some R)
      (parts : R.acquires = done ++ todo) :
      Inside done (todo.map (fun lock => .lock lock.1 lock.2) ++ [w])
  | leaving (left : List (Lock × Mode)) :
      Inside left (left.map fun lock => .unlock lock.1 lock.2)
  | unlockX (player : PlayerPtr) (x y : WORD) :
      Inside [(sectorLock x y, .exclusive)] [.dropSector player (.unlockX x y)]
  | unlockY (player : PlayerPtr) (x y : WORD) :
      Inside [(sectorLock x y, .exclusive)] [.dropSector player (.unlockY x y x)]

/-- The thread is in one region at most, and holds what is held there. -/
def Placed (h : Holdings (Lock × Mode)) (t : Nat) (stack : List Frame) : Prop :=
  ∃ locks inside below, stack = inside ++ below ∧ Inside locks inside ∧
    (∀ f ∈ below, f.Outside) ∧ h.Has t locks

theorem Placed.of_outside {h : Holdings (Lock × Mode)} {t : Nat} {stack : List Frame}
    (outside : ∀ f ∈ stack, f.Outside) (free : h.Has t []) : Placed h t stack :=
  ⟨[], [], stack, rfl, .outside, outside, free⟩

theorem Placed.enter {h : Holdings (Lock × Mode)} {t : Nat} {w : Frame} {R : Region}
    {below : List Frame} (work : w.region = some R) (outside : ∀ f ∈ below, f.Outside)
    (free : h.Has t []) : Placed h t (R.enter w ++ below) := by
  have inside : Inside [] (R.enter w) := .entering work (List.nil_append _).symm
  exact ⟨[], _, below, rfl, inside, outside, free⟩

/-- The next frame of a thread that is placed: outside the regions; the work of
one; a lock on the way in, or out; or a read of `LeaveProc` for its unlock. -/
inductive Heads (h : Holdings (Lock × Mode)) (t : Nat) (rest : List Frame) : Frame → Prop
  | outside {f : Frame} (here : f.Outside) (below : ∀ g ∈ rest, g.Outside) (free : h.Has t []) :
      Heads h t rest f
  | work {w : Frame} {R : Region} (work : w.region = some R) (below : ∀ g ∈ rest, g.Outside)
      (has : h.Has t R.acquires) : Heads h t rest w
  | lock {lock : Lock × Mode} {locks : List (Lock × Mode)}
      (lower : ∀ lock' ∈ locks, lock'.1.rank < lock.1.rank) (has : h.Has t locks)
      (next : ∀ h', Holdings.Has h' t (locks ++ [lock]) → Placed h' t rest) :
      Heads h t rest (.lock lock.1 lock.2)
  | unlock {lock : Lock × Mode} {locks : List (Lock × Mode)} (has : h.Has t (lock :: locks))
      (next : ∀ h', Holdings.Has h' t locks → Placed h' t rest) :
      Heads h t rest (.unlock lock.1 lock.2)
  | unlockX (player : PlayerPtr) (x y : WORD) (below : ∀ g ∈ rest, g.Outside)
      (has : h.Has t [(sectorLock x y, .exclusive)]) :
      Heads h t rest (.dropSector player (.unlockX x y))
  | unlockY (player : PlayerPtr) (x y : WORD) (below : ∀ g ∈ rest, g.Outside)
      (has : h.Has t [(sectorLock x y, .exclusive)]) :
      Heads h t rest (.dropSector player (.unlockY x y x))

theorem Placed.heads {h : Holdings (Lock × Mode)} {t : Nat} {f : Frame} {rest : List Frame}
    (placed : Placed h t (f :: rest)) : Heads h t rest f := by
  obtain ⟨locks, inside, below, split, places, outside, has⟩ := placed
  cases places with
  | outside =>
      cases split
      exact .outside (outside f List.mem_cons_self)
        (fun g member => outside g (List.mem_cons_of_mem f member)) has
  | @entering w R _ todo work parts =>
      cases todo with
      | nil =>
          cases split
          rw [List.append_nil] at parts
          exact .work work outside (parts ▸ has)
      | cons lock todo =>
          cases split
          have increasing := (orderly_region work).increasing
          rw [parts, List.map_append] at increasing
          have lower := (List.pairwise_append.mp increasing).2.2
          refine .lock (fun lock' member => ?_) has fun h' has' => ?_
          · exact lower _ (List.mem_map_of_mem member) _ List.mem_cons_self
          · have parts' : R.acquires = (locks ++ [lock]) ++ todo := by
              rw [parts, List.append_assoc]
              rfl
            exact ⟨_, _, below, rfl, .entering work parts', outside, has'⟩
  | leaving =>
      cases locks with
      | nil =>
          cases split
          exact .outside (outside f List.mem_cons_self)
            (fun g member => outside g (List.mem_cons_of_mem f member)) has
      | cons lock left =>
          cases split
          exact .unlock has fun h' has' => ⟨_, _, below, rfl, .leaving left, outside, has'⟩
  | unlockX player x y =>
      cases split
      exact .unlockX player x y outside has
  | unlockY player x y =>
      cases split
      exact .unlockY player x y outside has

/-- An operation of `chatServer` here. -/
theorem chatAct_cases (f : ChatThreads.Frame) :
    (∃ R, region f = some R ∧ chatAct f = ⟨.pass, fun _ => R.enter (.work f)⟩) ∨
      (∃ sessionID player, chatAct f = ⟨.pass, fun _ =>
        [.dropSector player .lockX, .chat (.leave sessionID player .closing)]⟩) ∨
      chatAct f = ⟨.chat f.act.op, fun r =>
        (if sends f then [.session] else []) ++ (f.act.next r).map .chat⟩ := by
  unfold chatAct
  split
  · exact Or.inr (Or.inl ⟨_, _, rfl⟩)
  · split
    · rename_i R found
      exact Or.inl ⟨R, found, rfl⟩
    · exact Or.inr (Or.inr rfl)

section Step

variable {h : Holdings (Lock × Mode)} {t : Nat} {rest : List Frame}

/-- A step outside the regions. -/
theorem Placed.step_outside {f : Frame} (here : f.Outside) (below : ∀ g ∈ rest, g.Outside)
    (free : h.Has t []) (r : f.act.α) : Placed (note t f rest r h) t (f.act.next r ++ rest) := by
  have on (fs : List Frame) (next : ∀ g ∈ fs, g.Outside) : Placed h t (fs ++ rest) := by
    apply Placed.of_outside _ free
    intro g member
    rcases List.mem_append.mp member with first | later
    · exact next g first
    · exact below g later
  cases f with
  | chat f =>
      revert r
      show ∀ r : (chatAct f).α, Placed h t ((chatAct f).next r ++ rest)
      rcases chatAct_cases f with ⟨R, found, act⟩ | ⟨sessionID, player, act⟩ | act
      · rw [act]
        intro r
        exact Placed.enter found below free
      · rw [act]
        intro r
        apply on
        simp [Frame.Outside]
      · rw [act]
        intro r
        apply on
        intro g member
        rcases List.mem_append.mp member with session | next
        · split at session
          · cases List.mem_singleton.mp session
            trivial
          · cases session
        · obtain ⟨f', -, rfl⟩ := List.mem_map.mp next
          trivial
  | dropSector player pc =>
      cases pc with
      | lockX => exact on _ (by simp [Frame.Outside])
      | lockY x =>
          show Placed h t ((if isValidSector x r then _ else _) ++ rest)
          split
          · exact Placed.enter (R := .one (sectorLock x r) .exclusive) rfl below free
          · exact on _ (by simp [Frame.Outside])
      | _ => exact here.elim
  | index => exact Placed.enter rfl below free
  | checkTimeOut now => exact Placed.enter rfl below free
  | session =>
      apply on
      intro g member
      obtain ⟨sid, -, inside⟩ := List.mem_flatMap.mp member
      simp only [List.mem_cons, List.not_mem_nil, or_false] at inside
      rcases inside with rfl | rfl <;> trivial
  | worker =>
      apply on
      intro g member
      cases r <;> simp at member <;> rcases member with rfl | rfl | rfl <;> trivial
  | _ => exact here.elim

/-- The work of a region. -/
theorem Placed.step_work {w : Frame} {R : Region} (work : w.region = some R)
    (below : ∀ g ∈ rest, g.Outside) (has : h.Has t R.acquires) (r : w.act.α) :
    Placed (note t w rest r h) t (w.act.next r ++ rest) := by
  have balanced := has.perm (orderly_region work).balanced.symm
  have on (fs : List Frame) (next : ∀ g ∈ fs, g.Outside) :
      Placed h t (R.leave ++ fs ++ rest) := by
    refine ⟨_, R.leave, fs ++ rest, List.append_assoc _ _ _, .leaving R.releases, ?_, balanced⟩
    intro g member
    rcases List.mem_append.mp member with first | later
    · exact next g first
    · exact below g later
  cases w with
  | work f =>
      have found : region f = some R := work
      have next : (Frame.work f).act.next r = R.leave ++ (f.act.next r).map .chat := by
        simp only [Frame.act, workAct, found]
      rw [next]
      apply on
      intro g member
      obtain ⟨f', -, rfl⟩ := List.mem_map.mp member
      trivial
  | dropSector player pc =>
      cases pc with
      | erase x y =>
          cases work
          exact ⟨_, _, rest, rfl, .unlockX player x y, below, has⟩
      | _ => cases work
  | indexStack =>
      cases work
      refine on [] ?_
      intro g member
      cases member
  | players now =>
      cases work
      refine on (r.map fun _ => .session) ?_
      intro g member
      obtain ⟨sid, -, rfl⟩ := List.mem_map.mp member
      trivial
  | _ => cases work

/-- **What a step leaves of the regions.** -/
theorem Placed.step {s : Conf Frame Shared} {c : Choice} {f : Frame} {r : f.act.α} {m : Shared}
    (placed : Placed h t (f :: rest)) (here : s.threads[t]? = some (f :: rest))
    (kept : overtaken s t = false) (done : exec f.act.op c s.mem = some (r, m)) :
    Placed (note t f rest r h) t (f.act.next r ++ rest) := by
  unfold overtaken at kept
  rw [Conf.top_of_here here] at kept
  cases placed.heads with
  | outside here below free => exact Placed.step_outside here below free r
  | work work below has => exact Placed.step_work work below has r
  | lock lower has next => exact next _ (has.acquire _)
  | unlock has next => exact next _ has.release
  | unlockX player x y below has =>
      cases done
      obtain rfl := Decidable.not_not.mp (of_decide_eq_false kept)
      exact ⟨_, _, rest, rfl, .unlockY player _ y, below, has⟩
  | unlockY player x y below has =>
      cases done
      obtain rfl := Decidable.not_not.mp (of_decide_eq_false kept)
      exact ⟨_, _, rest, rfl, .leaving [(sectorLock x _, .exclusive)], below, has⟩

/-- A step of another thread. -/
theorem Placed.of_ne {k : Nat} {stack : List Frame} (placed : Placed h k stack) (other : k ≠ t)
    (f : Frame) (rest : List Frame) (r : f.act.α) : Placed (note t f rest r h) k stack := by
  obtain ⟨locks, inside, below, split, places, outside, has⟩ := placed
  refine ⟨locks, inside, below, split, places, outside, ?_⟩
  cases f with
  | lock l mode => exact has.acquire_of_ne other
  | unlock l mode => exact has.release_of_ne other
  | _ => exact has

end Step

/-! ## What a thread holds -/

section Held

variable {h : Holdings (Lock × Mode)} {t : Nat} {rest : List Frame}

/-- The locks that a thread holds when it comes to another one. -/
theorem Placed.lower {l : Lock} {mode : Mode} (placed : Placed h t (.lock l mode :: rest)) :
    ∀ l' mode', 0 < h t (l', mode') → l'.rank < l.rank := by
  intro l' mode' holds
  cases placed.heads with
  | outside here => exact False.elim here
  | work work => cases work
  | lock lower has => exact lower _ (has.pos_iff.mp holds)

/-- A thread that releases a lock holds it. -/
theorem Placed.holds {l : Lock} {mode : Mode} (placed : Placed h t (.unlock l mode :: rest)) :
    0 < h t (l, mode) := by
  cases placed.heads with
  | outside here => exact False.elim here
  | work work => cases work
  | unlock has => exact has.pos_iff.mpr List.mem_cons_self

/-- No place outside the regions is the work of one. -/
theorem Frame.region_of_outside {w : Frame} (outside : w.Outside) : w.region = none := by
  cases w with
  | dropSector player pc =>
      cases pc with
      | lockX => rfl
      | lockY x => rfl
      | _ => exact False.elim outside
  | work f => exact False.elim outside
  | indexStack => exact False.elim outside
  | players now => exact False.elim outside
  | _ => rfl

/-- Outside the regions a thread has released all it has acquired. -/
theorem Placed.free {f : Frame} (placed : Placed h t (f :: rest)) (here : f.Outside) :
    h.Has t [] := by
  cases placed.heads with
  | outside _ _ free => exact free
  | work work =>
      rw [Frame.region_of_outside here] at work
      cases work
  | lock => exact False.elim here
  | unlock => exact False.elim here
  | unlockX => exact False.elim here
  | unlockY => exact False.elim here

end Held

/-! ## Runs -/

/-- The lock that the thread has come to acquire. -/
def awaited (s : Conf Frame Shared) (t : Nat) : Option (Lock × Mode) :=
  match s.top t with
  | some (.lock l mode) => some (l, mode)
  | _ => none

theorem awaited_cases {s : Conf Frame Shared} {t : Nat} {l : Lock} {mode : Mode}
    (awaits : awaited s t = some (l, mode)) :
    ∃ rest, s.threads[t]? = some (.lock l mode :: rest) := by
  unfold awaited at awaits
  split at awaits
  · rename_i top
    cases awaits
    exact Conf.top_cases top
  · cases awaits

/-- The thread waits for the lock, or is about to acquire it. -/
def waits (s : Conf Frame Shared) (t : Nat) (l : Lock) : Prop :=
  ∃ mode, awaited s t = some (l, mode)

/-- The thread has acquired the lock more often than released it. -/
def holds (held : Holdings (Lock × Mode)) (t : Nat) (l : Lock) : Prop :=
  ∃ mode, 0 < held t (l, mode)

/-- What the locks are to guarantee. -/
structure Sound (s : Conf Frame Shared) (held : Holdings (Lock × Mode)) : Prop where
  /-- No threads wait for one another. -/
  noDeadlock : ∀ S, ¬ CircularWait (waits s) (holds held) S
  /-- Nobody acquires a lock that he holds. -/
  noReentry : ∀ t l, waits s t l → ¬ holds held t l
  /-- Nobody releases a lock that he does not hold in this mode. -/
  owned : ∀ t l mode, s.top t = some (.unlock l mode) → 0 < held t (l, mode)
  /-- Behind a region, so where a handler has returned, as much of each lock is
  released as was acquired. -/
  balanced : ∀ t f, s.top t = some f → f.Outside → ∀ l mode, held t (l, mode) = 0

/-- Every thread is placed. -/
def AllPlaced (s : Conf Frame Shared) (held : Holdings (Lock × Mode)) : Prop :=
  ∀ t stack, s.threads[t]? = some stack → Placed held t stack

theorem placed_boot (chat : ChatServer) (redis workers : Nat) :
    AllPlaced (boot chat redis workers) .empty := by
  intro t stack here
  apply Placed.of_outside
  · intro f inside
    rcases List.mem_append.mp (List.mem_of_getElem? here) with first | last
    · rw [(List.mem_replicate.mp first).2, List.mem_singleton] at inside
      rw [inside]
      trivial
    · rw [(List.mem_replicate.mp last).2, List.mem_singleton] at inside
      rw [inside]
      trivial
  · intro l
    rfl

/-- A step keeps every thread placed. -/
theorem placed_step {p q : Conf Frame Shared × Holdings (Lock × Mode)} {t : Nat} {c : Choice}
    (placed : AllPlaced p.1 p.2) (kept : overtaken p.1 t = false)
    (step : chatLocks.noted note p t c = some q) : AllPlaced q.1 q.2 := by
  obtain ⟨f, rest, r, m, here, done, rfl⟩ := Machine.noted_cases step
  intro k stack there
  rcases eq_or_ne k t with rfl | other
  · have bound := (List.getElem?_eq_some_iff.mp here).1
    rw [List.getElem?_set_self bound] at there
    cases there
    exact (placed k _ here).step here kept done
  · rw [List.getElem?_set_ne other.symm] at there
    exact (placed k stack there).of_ne other f rest r

theorem placed_steps {chat : ChatServer} {redis workers : Nat} {s : Conf Frame Shared}
    {held : Holdings (Lock × Mode)}
    (run : chatLocks.NotedSteps note (fun s t _ => overtaken s t = false)
      (boot chat redis workers, .empty) (s, held)) : AllPlaced s held :=
  run.invariant (I := AllPlaced) (placed_boot chat redis workers)
    fun _ _ _ _ before kept step => placed_step before kept step

/-- Where every thread is placed the locks are sound. -/
theorem AllPlaced.sound {s : Conf Frame Shared} {held : Holdings (Lock × Mode)}
    (placed : AllPlaced s held) : Sound s held := by
  have ordered (t : Nat) (l l' : Lock) (waiting : waits s t l) (holding : holds held t l') :
      l'.rank < l.rank := by
    obtain ⟨mode, awaits⟩ := waiting
    obtain ⟨rest, there⟩ := awaited_cases awaits
    obtain ⟨mode', has⟩ := holding
    exact (placed t _ there).lower l' mode' has
  refine ⟨?_, ?_, ?_, ?_⟩
  · apply not_circularWait Lock.rank _ ordered
    apply (Set.finite_lt_nat s.threads.length).subset
    rintro t ⟨l, mode, awaits⟩
    obtain ⟨rest, there⟩ := awaited_cases awaits
    exact (List.getElem?_eq_some_iff.mp there).1
  · intro t l waiting holding
    exact absurd (ordered t l l waiting holding) (Nat.lt_irrefl _)
  · intro t l mode here
    obtain ⟨rest, there⟩ := Conf.top_cases here
    exact (placed t _ there).holds
  · intro t f here outside l mode
    obtain ⟨rest, there⟩ := Conf.top_cases here
    exact (placed t _ there).free outside (l, mode)

/-- **No deadlock**, whatever the threads do, while `LeaveProc` unlocks the
sector that it has locked. -/
theorem deadlock_free {chat : ChatServer} {redis workers : Nat} {s : Conf Frame Shared}
    {held : Holdings (Lock × Mode)}
    (run : chatLocks.NotedSteps note (fun s t _ => overtaken s t = false)
      (boot chat redis workers, .empty) (s, held)) : Sound s held :=
  (placed_steps run).sound

/-- A thread goes on, with this call if it begins one, and with these sessions
if it releases any. -/
def calls (t : Nat) (call : ChatThreads.Call) (sessions : List UINT64) : Nat × Choice :=
  (t, ⟨⟨call, true, 0, 100⟩, .chat call, sessions⟩)

def joins (t : Nat) (sessionID : UINT64) : Nat × Choice := calls t (.join 5 sessionID) []

def moves (t : Nat) (sessionID : UINT64) (x y : WORD) : Nat × Choice :=
  calls t (.recv ⟨0, 0, 0, 0, fun _ => 0⟩ 100 sessionID (CPacket.received 0
    (bytesOf en_PACKET_CS_CHAT_REQ_SECTOR_MOVE ++ List.replicate 8 0 ++ bytesOf x ++
      bytesOf y))) []

/-- A request of a session that is gone, and the `Disconnect`, which releases
session 1. -/
def releases (t : Nat) : Nat × Choice :=
  calls t (.recv ⟨0, 0, 0, 0, fun _ => 0⟩ 100 9 (CPacket.received 0 [])) [1]

/-- Two sessions join, and one moves to the sector (0, 0). -/
def twoSessions : List (Nat × Choice) :=
  List.replicate 8 (joins 0 1) ++ List.replicate 8 (joins 0 2) ++ List.replicate 20 (moves 0 1 0 0)

/-- One thread waits for the sector that another one leaves, and the other one can go on. -/
theorem deadlock_free_leave :
    ∃ s held, chatLocks.NotedSteps note (fun s t _ => overtaken s t = false)
        (boot .start 0 2, .empty) (s, held) ∧
      waits s 0 (.sector (0, 0)) ∧ holds held 1 (.sector (0, 0)) ∧ Sound s held := by
  have reached : (chatLocks.runNoted note (fun s t _ => overtaken s t = false)
      (twoSessions ++ List.replicate 17 (releases 1) ++ List.replicate 10 (moves 0 2 0 0))
        (boot .start 0 2, .empty)).map (fun p =>
          (awaited p.1 0, p.2 1 (.sector (0, 0), .exclusive))) =
        some (some (.sector (0, 0), .exclusive), 1) := by decide +kernel
  obtain ⟨⟨s, held⟩, run, found⟩ := Option.map_eq_some_iff.mp reached
  obtain ⟨awaits, has⟩ := Prod.mk.inj found
  have steps := Machine.NotedSteps.of_run run
  exact ⟨s, held, steps, ⟨_, awaits⟩, ⟨.exclusive, has.ge⟩, deadlock_free steps⟩

/-- A thread is handling a move of session 1 from the sector (0, 0) to (1, 0),
when another one runs `LeaveProc` for the session: it locks (0, 0), the first
one stores (1, 0) and locks it for a move of session 2, and the second one
unlocks (1, 0).  It goes on, and waits for (0, 0), which it has not released. -/
theorem deadlock_overtaken :
    ∃ s held, chatLocks.NotedSteps note (fun _ _ _ => True) (boot .start 0 2, .empty) (s, held) ∧
      waits s 1 (.sector (0, 0)) ∧ (s.mem.lock (.sector (0, 0))).acquire .exclusive = none ∧
      holds held 1 (.sector (0, 0)) ∧ ¬ Sound s held := by
  have reached : (chatLocks.runNoted note (fun _ _ _ => True)
      (twoSessions ++ List.replicate 15 (moves 0 1 1 0) ++ List.replicate 17 (releases 1) ++
        List.replicate 7 (moves 0 1 1 0) ++ List.replicate 11 (moves 0 2 1 0) ++
        List.replicate 10 (releases 1) ++ List.replicate 8 (joins 1 3) ++
        List.replicate 10 (moves 1 3 0 0)) (boot .start 0 2, .empty)).map (fun p =>
          (awaited p.1 1, (p.1.mem.lock (.sector (0, 0))).acquire .exclusive,
            p.2 1 (.sector (0, 0), .exclusive))) =
        some (some (.sector (0, 0), .exclusive), none, 1) := by decide +kernel
  obtain ⟨⟨s, held⟩, run, found⟩ := Option.map_eq_some_iff.mp reached
  simp only [Prod.mk.injEq] at found
  obtain ⟨awaits, taken, has⟩ := found
  have waiting : waits s 1 (.sector (0, 0)) := ⟨_, awaits⟩
  have holding : holds held 1 (.sector (0, 0)) := ⟨.exclusive, has.ge⟩
  refine ⟨s, held, .of_run run, waiting, taken, holding, ?_⟩
  intro sound
  exact sound.noReentry 1 _ waiting holding

/-! ## Who is waited for -/

theorem lock_of_chat {α : Type} {op : ChatThreads.Op α} {r : α} {c : Choice} {m m' : Shared}
    (done : exec (.chat op) c m = some (r, m')) : m'.lock = m.lock := by
  obtain ⟨⟨r', chat⟩, -, same⟩ := Option.map_eq_some_iff.mp done
  cases same
  rfl

/-- Only an acquisition and a release change the locks, and both are recorded. -/
theorem note_cases {f : Frame} {r : f.act.α} {c : Choice} {m m' : Shared}
    (done : exec f.act.op c m = some (r, m')) (t : Nat) (rest : List Frame)
    (h : Holdings (Lock × Mode)) :
    (∃ l mode lock, (m.lock l).acquire mode = some lock ∧
        m'.lock = Function.update m.lock l lock ∧ note t f rest r h = h.acquire t (l, mode)) ∨
      (∃ l mode lock, (m.lock l).release mode = some lock ∧
        m'.lock = Function.update m.lock l lock ∧ note t f rest r h = h.release t (l, mode)) ∨
      m'.lock = m.lock ∧ note t f rest r h = h := by
  cases f with
  | lock l mode =>
      obtain ⟨lock, acquired, same⟩ := Option.map_eq_some_iff.mp done
      cases same
      exact Or.inl ⟨l, mode, lock, acquired, rfl, rfl⟩
  | unlock l mode =>
      obtain ⟨lock, released, same⟩ := Option.map_eq_some_iff.mp done
      cases same
      exact Or.inr (Or.inl ⟨l, mode, lock, released, rfl, rfl⟩)
  | chat f =>
      refine Or.inr (Or.inr ⟨?_, rfl⟩)
      have act : ∀ r : (chatAct f).α, exec (chatAct f).op c m = some (r, m') →
          m'.lock = m.lock := by
        rcases chatAct_cases f with ⟨R, -, act⟩ | ⟨sessionID, player, act⟩ | act
        · rw [act]
          intro r done
          cases done
          rfl
        · rw [act]
          intro r done
          cases done
          rfl
        · rw [act]
          exact fun r => lock_of_chat
      exact act r done
  | work f => exact Or.inr (Or.inr ⟨lock_of_chat done, rfl⟩)
  | dropSector player pc => cases pc <;> exact Or.inr (Or.inr ⟨lock_of_chat done, rfl⟩)
  | _ =>
      cases done
      exact Or.inr (Or.inr ⟨rfl, rfl⟩)

/-- The locks are as the acquisitions and releases have left them. -/
def Recorded (s : Conf Frame Shared) (held : Holdings (Lock × Mode)) : Prop :=
  ∀ l mode, (s.mem.lock l).count mode = held.total s.threads.length (l, mode)

theorem recorded_boot (chat : ChatServer) (redis workers : Nat) :
    Recorded (boot chat redis workers) .empty := by
  intro l mode
  have none : Holdings.empty.total (boot chat redis workers).threads.length (l, mode) = 0 :=
    Finset.sum_eq_zero fun _ _ => rfl
  rw [none]
  cases mode <;> rfl

theorem recorded_step {p q : Conf Frame Shared × Holdings (Lock × Mode)} {t : Nat} {c : Choice}
    (recorded : Recorded p.1 p.2) (step : chatLocks.noted note p t c = some q) :
    Recorded q.1 q.2 := by
  obtain ⟨f, rest, r, m, here, done, rfl⟩ := Machine.noted_cases step
  have inside := (List.getElem?_eq_some_iff.mp here).1
  intro l' mode'
  have before := recorded l' mode'
  dsimp only
  rw [List.length_set]
  rcases note_cases done t rest p.2 with ⟨l, mode, lock, acquired, locks, noted⟩ |
    ⟨l, mode, lock, released, locks, noted⟩ | ⟨locks, noted⟩
  · rw [locks, noted, Holdings.total_acquire inside, ← before]
    rcases eq_or_ne l' l with rfl | apart
    · simp [RWLock.count_acquire acquired]
    · simp [apart]
  · rw [locks, noted, Holdings.total_release inside, ← before]
    rcases eq_or_ne l' l with rfl | apart
    · simp [RWLock.count_release released]
    · simp [apart]
  · rw [locks, noted, before]

/-- A thread that has to wait for a lock, waits for one that holds it. -/
theorem Recorded.exists_holder {s : Conf Frame Shared} {held : Holdings (Lock × Mode)}
    (recorded : Recorded s held) {l : Lock} {mode : Mode}
    (refused : (s.mem.lock l).acquire mode = none) : ∃ k, holds held k l := by
  obtain ⟨mode', taken⟩ := RWLock.exists_count_pos refused
  rw [recorded l mode'] at taken
  obtain ⟨k, has⟩ := Holdings.exists_pos_of_total_pos taken
  exact ⟨k, mode', has⟩

/-- The thread cannot go on before the lock is released. -/
def blocked (s : Conf Frame Shared) (t : Nat) (l : Lock) : Prop :=
  ∃ mode, awaited s t = some (l, mode) ∧ (s.mem.lock l).acquire mode = none

/-- Where threads are blocked, one that holds a lock they need is not, while
`LeaveProc` unlocks the sector that it has locked. -/
theorem holder_not_blocked {chat : ChatServer} {redis workers : Nat} {s : Conf Frame Shared}
    {held : Holdings (Lock × Mode)}
    (run : chatLocks.NotedSteps note (fun s t _ => overtaken s t = false)
      (boot chat redis workers, .empty) (s, held)) (some : ∃ t l, blocked s t l) :
    ∃ t l k, blocked s t l ∧ holds held k l ∧ ∀ l', ¬ blocked s k l' := by
  have recorded : Recorded s held :=
    run.invariant (I := Recorded) (recorded_boot chat redis workers)
      fun _ _ _ _ before _ step => recorded_step before step
  refine exists_holder_not_waiting ?_ ?_ some
  · intro S wait
    obtain ⟨nonempty, circular⟩ := wait
    refine (placed_steps run).sound.noDeadlock S ⟨nonempty, fun t member => ?_⟩
    obtain ⟨l, ⟨mode, awaits, -⟩, k, inside, holding⟩ := circular t member
    exact ⟨l, ⟨mode, awaits⟩, k, inside, holding⟩
  · intro t l waiting
    obtain ⟨mode, -, refused⟩ := waiting
    exact recorded.exists_holder refused

end ChatLocks

end ChattingServer
