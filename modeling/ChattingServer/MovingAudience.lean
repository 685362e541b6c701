import ChattingServer.PlayerOwnership
import ChattingServer.Foundation.Sweep

/-!
# The audience of a chat message while players move

`Req_Chat` locks and scans the sectors around the sender one after another.  A
`Survey` records beside a run whom a scanning thread has collected, and how a
player has moved meanwhile.  A player that stays in the neighbourhood is
collected once, once more for each move from a sector already scanned to one
still to be scanned, and once less for each move the other way
(`collected_of_run`).
-/

namespace ChattingServer

namespace ChatThreads

/-- Beside a run: the sweep of a thread over the sectors, against the moves of a
player, and whom the thread has collected. -/
structure Survey where
  sweep : Sweep (Nat × Nat)
  collected : List (PlayerPtr × UINT64)

/-- The thread is about to scan these sectors, and the player is in this one. -/
def Survey.start (area : List (Nat × Nat)) (sector : Nat × Nat) : Survey :=
  ⟨.start area sector, []⟩

/-- A sector has been scanned. -/
def Survey.scanned (h : Survey) (met : List (PlayerPtr × UINT64)) : Survey :=
  ⟨h.sweep.visit, h.collected ++ met⟩

/-- The set update of a `Req_SectorMove` of the player. -/
def Survey.moved (h : Survey) (req : Move) : Survey :=
  { h with sweep := h.sweep.move (req.x.toNat, req.y.toNat) }

def Survey.note (t : Nat) (q : PlayerPtr) (k : Nat) (f : Frame) (_ : List Frame) (r : f.act.α)
    (h : Survey) : Survey :=
  match f, r with
  | .chat _ (.scan ..), met => if k = t then h.scanned met else h
  | .move p req (.sets ..), _ => if p = q then h.moved req else h
  | _, _ => h

/-- The thread is between the first of its scans and the last. -/
def scanning (s : Conf Frame ChatServer) (t : Nat) : Bool :=
  match s.top t with
  | some (.chat _ (.scan ..)) => true
  | _ => false

/-- How often a player is in the set of a sector. -/
def inSector (s : ChatServer) (q : PlayerPtr) (cell : Nat × Nat) : Nat := (s.sectorAt cell).count q

/-- The thread does not move the player out of these sectors. -/
def staysInside (area : List (Nat × Nat)) (q : PlayerPtr) (s : Conf Frame ChatServer) (k : Nat) :
    Bool :=
  match s.top k with
  | some (.move p req (.sets ..)) => decide (p = q → (req.x.toNat, req.y.toNat) ∈ area)
  | _ => true

/-- A step of thread `k` while thread `t` scans these sectors and the player is
logged in and in one of them, and does not move out of them. -/
def Within (area : List (Nat × Nat)) (t : Nat) (q : PlayerPtr) (s : Conf Frame ChatServer)
    (k : Nat) : Prop :=
  scanning s t = true ∧ (s.mem.player q).isLogined = true ∧
    (area.map (inSector s.mem q)).sum = 1 ∧ staysInside area q s k = true

instance (area : List (Nat × Nat)) (t : Nat) (q : PlayerPtr) (s : Conf Frame ChatServer)
    (k : Nat) : Decidable (Within area t q s k) :=
  inferInstanceAs (Decidable (_ ∧ _ ∧ _ ∧ _))

variable {s s' : Conf Frame ChatServer} {m : ChatServer} {c : Choice}

/-! ## What a step does to the sectors -/

/-- The operations on the sets of the sectors. -/
@[simp] def Op.Files {α : Type} : Op α → Prop
  | .moveSector .. => True
  | .dropSector _ => True
  | _ => False

theorem exec_sector {α : Type} {op : Op α} {r : α} {s : ChatServer} (other : ¬ op.Files)
    (done : exec op c s = some (r, m)) : m.sector = s.sector := by
  cases op with
  | abort => cases done
  | choose | load | store | fetchSub | free | putAccount | scan | send =>
      cases done
      rfl
  | popJob | find | emplace | erase | dropAccount =>
      dsimp only [exec] at done
      split at done <;> cases done <;> rfl
  | pushJob sessionID packet =>
      cases done
      unfold ChatServer.enqueueRedis
      split <;> rfl
  | alloc =>
      have taken : s.allocPlayer.2 = m := congrArg Prod.snd (Option.some.inj done)
      rw [← taken, ChatServer.allocPlayer]
      split <;> rfl
  | sendLogin sessionID account status =>
      obtain ⟨res, rfl⟩ := exec_sendLogin done
      rfl
  | moveSector | dropSector => exact absurd trivial other

theorem inSector_updateSector {s : ChatServer} {q : PlayerPtr} (x y : WORD)
    (f : List PlayerPtr → List PlayerPtr) (cell : Nat × Nat) :
    inSector (s.updateSector x y f) q cell =
      if cell = (x.toNat, y.toNat) then (f (s.sectorAt (x.toNat, y.toNat))).count q
      else inSector s q cell := by
  unfold inSector
  rw [ChatServer.sectorAt_updateSector]
  split
  · rename_i same
    rw [same, Function.update_self]
  · rename_i other
    rw [Function.update_of_ne other]

/-- Taking a player out of a set adds none. -/
theorem inSector_erase_le {s : ChatServer} {q p : PlayerPtr} (x y : WORD) (cell : Nat × Nat) :
    inSector (s.updateSector x y (·.erase p)) q cell ≤ inSector s q cell := by
  rw [inSector_updateSector]
  split
  · rename_i same
    rw [same]
    exact List.Sublist.count_le q List.erase_sublist
  · exact Nat.le_refl _

theorem inSector_insert_of_ne {s : ChatServer} {q p : PlayerPtr} (other : p ≠ q) (x y : WORD)
    (cell : Nat × Nat) :
    inSector (s.updateSector x y (·.insert p)) q cell = inSector s q cell := by
  rw [inSector_updateSector]
  split
  · rename_i same
    rw [same]
    by_cases member : p ∈ s.sectorAt (x.toNat, y.toNat)
    · rw [List.insert_of_mem member]
      rfl
    · rw [List.insert_of_not_mem member, List.count_cons_of_ne other]
      rfl
  · rfl

/-- A player that moves is in the sector it moves to. -/
theorem inSector_insert_self {s : ChatServer} {q : PlayerPtr} (x y : WORD) :
    0 < inSector (s.updateSector x y (·.insert q)) q (x.toNat, y.toNat) := by
  rw [inSector_updateSector, if_pos rfl]
  exact List.count_pos_iff.mpr List.mem_insert_self

/-- Only its own move puts a player into a set. -/
theorem Frame.inSector_le {f : Frame} {q : PlayerPtr} {r : f.act.α}
    (other : ∀ req ox oy, f ≠ .move q req (.sets ox oy))
    (done : exec f.act.op c s.mem = some (r, m)) (cell : Nat × Nat) :
    inSector m q cell ≤ inSector s.mem q cell := by
  have same : ¬ f.act.op.Files → inSector m q cell ≤ inSector s.mem q cell := by
    intro keeps
    unfold inSector ChatServer.sectorAt
    rw [exec_sector keeps done]
  cases f with
  | join pc => cases pc <;> exact same (by simp)
  | leave sessionID p pc =>
      cases pc with
      | sector =>
          cases done
          exact inSector_erase_le ..
      | _ => exact same (by simp)
  | login sessionID p packet pc => cases pc <;> exact same (by simp)
  | move p req pc =>
      cases pc with
      | sets ox oy =>
          have different : p ≠ q := fun own => other req ox oy (own ▸ rfl)
          cases done
          rw [inSector_insert_of_ne different]
          split
          · exact inSector_erase_le ..
          · exact Nat.le_refl _
      | _ => exact same (by simp)
  | chat p pc => cases pc <;> exact same (by simp)
  | complete sessionID p found pc => cases pc <;> exact same (by simp)
  | _ => exact same (by simp)

/-- How often a scan meets a player. -/
theorem count_met (s : ChatServer) (cell : Nat × Nat) (q : PlayerPtr) :
    ((met s cell).map Prod.fst).count q =
      if (s.player q).isLogined = true then inSector s q cell else 0 := by
  unfold met inSector
  induction s.sectorAt cell with
  | nil =>
      split <;> rfl
  | cons p players ih =>
      rw [List.filterMap_cons, List.count_cons]
      rcases eq_or_ne p q with rfl | other
      · by_cases logined : (s.player p).isLogined = true
        · simp only [ChatServer.collect, if_pos logined, Option.map_some, List.map_cons,
            List.count_cons_self, beq_self_eq_true, if_true] at ih ⊢
          rw [ih]
        · simp only [ChatServer.collect, if_neg logined, Option.map_none] at ih ⊢
          exact ih
      · by_cases logined : (s.player p).isLogined = true
        · simp only [ChatServer.collect, if_pos logined, Option.map_some, List.map_cons,
            List.count_cons_of_ne other, beq_iff_eq, if_neg other, Nat.add_zero] at ih ⊢
          exact ih
        · simp only [ChatServer.collect, if_neg logined, Option.map_none, beq_iff_eq, if_neg other,
            Nat.add_zero] at ih ⊢
          exact ih

/-! ## The survey -/

variable {area : List (Nat × Nat)} {t : Nat} {q sender : PlayerPtr} {res : CPacket}
  {rest : List Frame} {h h' : Survey}

/-- What thread `t` has done and has yet to do, and where the player is. -/
structure Surveyed (area : List (Nat × Nat)) (t : Nat) (q sender : PlayerPtr) (res : CPacket)
    (rest : List Frame) (s : Conf Frame ChatServer) (h : Survey) : Prop where
  here : s.threads[t]? = some (ReqChat.scans sender res (h.collected.map Prod.snd) h.sweep.left ++
    .release sender :: rest)
  balanced : h.sweep.Balanced
  left : ∀ cell ∈ h.sweep.left, cell ∈ area
  met : (h.collected.map Prod.fst).count q = h.sweep.met
  place : h.sweep.place ∈ area
  filed : (area.map (inSector s.mem q)).sum = 1 → 0 < inSector s.mem q h.sweep.place

/-- The thread goes on scanning as long as sectors are left. -/
theorem Surveyed.left_of_scanning (inv : Surveyed area t q sender res rest s h)
    (scan : scanning s t = true) :
    ∃ cell cells, h.sweep.left = cell :: cells ∧ s.threads[t]? = some (.chat sender
      (.scan res (h.collected.map Prod.snd) cell cells) :: .release sender :: rest) := by
  have here := inv.here
  cases left : h.sweep.left with
  | nil =>
      rw [left] at here
      rw [scanning, Conf.top, here] at scan
      dsimp only [ReqChat.scans] at scan
      cases targets : h.collected.map Prod.snd with
      | nil =>
          rw [targets] at scan
          cases scan
      | cons sid targets' =>
          rw [targets] at scan
          cases scan
  | cons cell cells =>
      rw [left] at here
      exact ⟨cell, cells, rfl, here⟩

/-- The thread scans a sector. -/
theorem Surveyed.scan (inv : Surveyed area t q sender res rest s h)
    (within : Within area t q s t)
    (step : chatServer.noted (Survey.note t q) (s, h) t c = some (s', h')) :
    Surveyed area t q sender res rest s' h' := by
  obtain ⟨scan, logined, one, -⟩ := within
  obtain ⟨cell, cells, left, here⟩ := inv.left_of_scanning scan
  obtain ⟨f, below, r, m, top, done, same⟩ := chat_noted_cases step
  obtain ⟨rfl, rfl⟩ := List.cons.inj (Option.some.inj (here.symm.trans top))
  obtain ⟨rfl, rfl⟩ := Prod.mk.inj same
  obtain ⟨looked, rfl⟩ := Prod.mk.inj (Option.some.inj done)
  subst looked
  have bound : t < s.threads.length := (List.getElem?_eq_some_iff.mp here).1
  have note : Survey.note t q t (.chat sender (.scan res (h.collected.map Prod.snd) cell cells))
      (.release sender :: rest) (ChatThreads.met s.mem cell) h =
        h.scanned (ChatThreads.met s.mem cell) := if_pos rfl
  have visit : h.sweep.visit = { h.sweep with
      left := cells
      met := h.sweep.met + if h.sweep.place = cell then 1 else 0 } := by
    unfold Sweep.visit
    rw [left]
  have member : cell ∈ area := inv.left cell (left ▸ List.mem_cons_self)
  rw [note]
  refine ⟨?_, inv.balanced.visit, ?_, ?_, ?_, ?_⟩
  · show (s.threads.set t _)[t]? = some (ReqChat.scans sender res
      ((h.collected ++ ChatThreads.met s.mem cell).map Prod.snd) h.sweep.visit.left ++ _)
    rw [List.getElem?_set_self bound, visit, List.map_append]
    rfl
  · intro k inside
    refine inv.left k ?_
    rw [left]
    change k ∈ h.sweep.visit.left at inside
    rw [visit] at inside
    exact List.mem_cons_of_mem cell inside
  · show ((h.collected ++ ChatThreads.met s.mem cell).map Prod.fst).count q = h.sweep.visit.met
    rw [visit, List.map_append, List.count_append, inv.met, count_met, if_pos logined,
      weight_eq_of_sum_one one inv.place (inv.filed one) member]
  · show h.sweep.visit.place ∈ area
    rw [visit]
    exact inv.place
  · show _ → 0 < inSector s.mem q h.sweep.visit.place
    rw [visit]
    exact inv.filed

/-- Another thread does something else than moving the player. -/
theorem Surveyed.quiet {k : Nat} {stack : List Frame}
    (inv : Surveyed area t q sender res rest s h) (other : k ≠ t)
    (one : (area.map (inSector s.mem q)).sum = 1)
    (less : ∀ cell, inSector m q cell ≤ inSector s.mem q cell) :
    Surveyed area t q sender res rest ⟨m, s.threads.set k stack⟩ h where
  here := by
    show (s.threads.set k _)[t]? = _
    rw [List.getElem?_set_ne other]
    exact inv.here
  balanced := inv.balanced
  left := inv.left
  met := inv.met
  place := inv.place
  filed one' := weight_stays one one' less inv.place (inv.filed one)

/-- A step of another thread. -/
theorem Surveyed.other {k : Nat} (inv : Surveyed area t q sender res rest s h)
    (within : Within area t q s k) (other : k ≠ t)
    (step : chatServer.noted (Survey.note t q) (s, h) k c = some (s', h')) :
    Surveyed area t q sender res rest s' h' := by
  obtain ⟨-, -, one, stays⟩ := within
  obtain ⟨f, below, r, m, there, done, same⟩ := chat_noted_cases step
  obtain ⟨rfl, rfl⟩ := Prod.mk.inj same
  have top : s.top k = some f := Conf.top_of_here there
  rw [staysInside, top] at stays
  have unnoted : (∀ req ox oy, f ≠ .move q req (.sets ox oy)) →
      Survey.note t q k f below r h = h := by
    intro still
    unfold Survey.note
    split
    · exact if_neg other
    · rename_i p req ox oy _
      refine if_neg ?_
      rintro rfl
      exact still req ox oy rfl
    · rfl
  by_cases moves : ∃ req ox oy, f = .move q req (.sets ox oy)
  · obtain ⟨req, ox, oy, rfl⟩ := moves
    have note : Survey.note t q k (.move q req (.sets ox oy)) below r h = h.moved req := if_pos rfl
    obtain ⟨-, rfl⟩ := Prod.mk.inj (Option.some.inj done)
    rw [note]
    refine ⟨?_, inv.balanced.move _, inv.left, inv.met, of_decide_eq_true stays rfl,
      fun _ => ?_⟩
    · show (s.threads.set k _)[t]? = _
      rw [List.getElem?_set_ne other]
      exact inv.here
    · exact inSector_insert_self ..
  · have still : ∀ req ox oy, f ≠ .move q req (.sets ox oy) := fun req ox oy same =>
      moves ⟨req, ox, oy, same⟩
    rw [unnoted still]
    exact inv.quiet other one (Frame.inSector_le still done)

/-- **The audience of a chat while players move.**  A player that is logged in
and in a sector of the neighbourhood throughout the collection is collected
once, and once more or less for each of its moves over the front of the scan. -/
theorem collected_of_run {cx cy : WORD} (inside : isValidSector cx cy = true)
    {s₀ s : Conf Frame ChatServer} {h : Survey} {cell sector : Nat × Nat}
    {cells : List (Nat × Nat)} (area : around cx cy = cell :: cells)
    (start : s₀.threads[t]? = some (.chat sender (.scan res [] cell cells) :: .release sender ::
      rest))
    (near : sector ∈ around cx cy) (there : 0 < inSector s₀.mem q sector)
    (run : chatServer.NotedSteps (Survey.note t q) (fun s k _ => Within (around cx cy) t q s k)
      (s₀, .start (around cx cy) sector) (s, h))
    (finished : h.sweep.left = []) :
    s.threads[t]? = some (ReqChat.sends sender res (h.collected.map Prod.snd) ++
      .release sender :: rest) ∧
      (h.collected.map Prod.fst).count q + h.sweep.missed = 1 + h.sweep.again := by
  have first : Surveyed (around cx cy) t q sender res rest s₀ (.start (around cx cy) sector) := by
    refine ⟨?_, Sweep.balanced_start (nodup_around inside) near, fun _ member => member, rfl, near,
      fun _ => there⟩
    rw [area]
    exact start
  have inv : Surveyed (around cx cy) t q sender res rest s h := by
    refine run.invariant (I := Surveyed (around cx cy) t q sender res rest) first ?_
    rintro ⟨s, h⟩ k c ⟨s', h'⟩ before within step
    rcases eq_or_ne k t with rfl | other
    · exact before.scan within step
    · exact before.other within other step
  have here := inv.here
  rw [finished] at here
  refine ⟨here, ?_⟩
  rw [inv.met]
  exact inv.balanced.done finished

/-- The thread is about to scan the first of these sectors. -/
def begins (area : List (Nat × Nat)) (t : Nat) (sender : PlayerPtr) (s : Conf Frame ChatServer) :
    Bool :=
  match s.threads[t]? with
  | some (.chat p (.scan _ [] cell cells) :: .release p' :: _) =>
      decide (p = sender ∧ p' = sender ∧ area = cell :: cells)
  | _ => false

theorem begins_cases {area : List (Nat × Nat)} (begun : begins area t sender s = true) :
    ∃ res rest cell cells, area = cell :: cells ∧
      s.threads[t]? = some (.chat sender (.scan res [] cell cells) :: .release sender :: rest) := by
  unfold begins at begun
  split at begun
  · rename_i p res cell cells p' rest here
    obtain ⟨rfl, rfl, same⟩ := of_decide_eq_true begun
    exact ⟨res, rest, cell, cells, same, here⟩
  · cases begun

/-- A request of a session, handled by a thread. -/
def requests (k : Nat) (sessionID : UINT64) (type : WORD) (bytes : List BYTE) : Nat × Choice :=
  (k, ⟨.recv ⟨0, 0, 0, 0, fun _ => 0⟩ 100 sessionID (CPacket.received 0 (bytesOf type ++ bytes)),
    true, 0, 100⟩)

/-- Two sessions join, log in and move to the sectors (0, 0) and (1, 1); the
first one chats and is about to scan. -/
def chatInCorner : List (Nat × Choice) :=
  let login (sessionID : UINT64) (account : INT64) :=
    requests 1 sessionID en_PACKET_CS_CHAT_REQ_LOGIN (bytesOf account ++ List.replicate 144 0)
  let move (sessionID : UINT64) (x y : WORD) :=
    requests 1 sessionID en_PACKET_CS_CHAT_REQ_SECTOR_MOVE (List.replicate 8 0 ++ bytesOf x ++
      bytesOf y)
  let joins (sessionID : UINT64) : Nat × Choice := (1, ⟨.join 5 sessionID, true, 0, 100⟩)
  List.replicate 4 (joins 1) ++ List.replicate 4 (joins 2) ++ List.replicate 10 (login 1 7) ++
    List.replicate 10 (login 2 8) ++ List.replicate 24 (0, ⟨.leave 1, true, 0, 100⟩) ++
    List.replicate 12 (move 1 0 0) ++ List.replicate 12 (move 2 1 1) ++
    List.replicate 48 (requests 1 1 en_PACKET_CS_CHAT_REQ_MESSAGE
      (bytesOf (7 : INT64) ++ bytesOf (2 : WORD) ++ [67, 0]))

/-- Two scans, the set update of a move of the second session, two scans. -/
def scansAround (x y : WORD) : List (Nat × Choice) :=
  let scans : Nat × Choice := (1, ⟨.leave 1, true, 0, 100⟩)
  List.replicate 2 scans ++ List.replicate 7 (requests 2 2 en_PACKET_CS_CHAT_REQ_SECTOR_MOVE
    (List.replicate 8 0 ++ bytesOf x ++ bytesOf y)) ++ List.replicate 2 scans

/-- A player that moves before its sector is scanned is collected once. -/
theorem collected_of_run_corner :
    ∃ s₀ s h, chatServer.Steps (fun _ _ _ => True) (boot 1 2) s₀ ∧
      chatServer.NotedSteps (Survey.note 1 1) (fun s k _ => Within (around 0 0) 1 1 s k)
        (s₀, .start (around 0 0) (1, 1)) (s, h) ∧
      h.sweep.left = [] ∧ h.sweep.missed = 0 ∧ h.sweep.again = 0 ∧
      (h.collected.map Prod.fst).count 1 + h.sweep.missed = 1 + h.sweep.again := by
  have reached : ((chatServer.run chatInCorner (boot 1 2)).bind fun s₀ =>
      (chatServer.runNoted (Survey.note 1 1) (fun s k _ => Within (around 0 0) 1 1 s k)
        (scansAround 0 1) (s₀, .start (around 0 0) (1, 1))).map fun q =>
          (begins (around 0 0) 1 0 s₀, inSector s₀.mem 1 (1, 1), q.2.sweep.left,
            q.2.sweep.missed, q.2.sweep.again)) = some (true, 1, [], 0, 0) := by decide +kernel
  obtain ⟨s₀, before, rest⟩ := Option.bind_eq_some_iff.mp reached
  obtain ⟨⟨s, h⟩, run, found⟩ := Option.map_eq_some_iff.mp rest
  simp only [Prod.mk.injEq] at found
  obtain ⟨begun, there, finished, missed, again⟩ := found
  obtain ⟨res, rest, cell, cells, area, start⟩ := begins_cases begun
  have steps := Machine.NotedSteps.of_run run
  refine ⟨s₀, s, h, Machine.Steps.of_run before, steps, finished, missed, again, ?_⟩
  exact (collected_of_run (by decide) area start (by decide) (by omega) steps finished).2

/-- A player that moves from a sector still to be scanned to one that has been
misses the message. -/
theorem collected_missed :
    ¬ ∀ (workers t q sender : Nat) (cx cy : WORD) (s₀ s : Conf Frame ChatServer) (h : Survey)
      (sector : Nat × Nat), isValidSector cx cy = true →
      chatServer.Steps (fun _ _ _ => True) (boot 1 workers) s₀ →
      begins (around cx cy) t sender s₀ = true → sector ∈ around cx cy →
      0 < inSector s₀.mem q sector →
      chatServer.NotedSteps (Survey.note t q) (fun s k _ => Within (around cx cy) t q s k)
        (s₀, .start (around cx cy) sector) (s, h) →
      h.sweep.left = [] → (h.collected.map Prod.fst).count q = 1 := by
  intro all
  have reached : ((chatServer.run chatInCorner (boot 1 2)).bind fun s₀ =>
      (chatServer.runNoted (Survey.note 1 1) (fun s k _ => Within (around 0 0) 1 1 s k)
        (scansAround 0 0) (s₀, .start (around 0 0) (1, 1))).map fun q =>
          (begins (around 0 0) 1 0 s₀, inSector s₀.mem 1 (1, 1), q.2.sweep.left,
            (q.2.collected.map Prod.fst).count 1)) = some (true, 1, [], 0) := by decide +kernel
  obtain ⟨s₀, before, rest⟩ := Option.bind_eq_some_iff.mp reached
  obtain ⟨⟨s, h⟩, run, found⟩ := Option.map_eq_some_iff.mp rest
  simp only [Prod.mk.injEq] at found
  obtain ⟨begun, there, finished, none⟩ := found
  have once := all 2 1 1 0 0 0 s₀ s h (1, 1) (by decide) (Machine.Steps.of_run before) begun
    (by decide) (by omega) (Machine.NotedSteps.of_run run) finished
  omega

end ChatThreads

end ChattingServer
