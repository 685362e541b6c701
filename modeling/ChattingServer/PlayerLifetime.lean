import ChattingServer.PlayerOwnership

/-!
# When a player goes back to the pool

A `Ledger` records beside a run which blocks `JoinProc` has put in the map and
which `ReleasePlayer` has given back.  `Lifetime` compares the two with who
still uses a player.

`JoinProc` sets `ref` to one for the map, and no path drops that one: while a
player is published its count is one more than its holders.  So a run keeps
`Lifetime` as long as no `ReleasePlayer` is the last of a player that has left
the map (`lifetime_of_run`), and loses it with the first that is
(`Balanced.not_lifetime`).
-/

namespace ChattingServer

namespace ChatThreads

structure Ledger where
  joined : List PlayerPtr
  returned : List PlayerPtr

def Ledger.empty : Ledger := ⟨[], []⟩

/-- A successful `emplace` takes a block from the pool for good, and the `Free`
of `ReleasePlayer` gives it back. -/
def Ledger.note (_ : Nat) (f : Frame) (_ : List Frame) (r : f.act.α) (h : Ledger) : Ledger :=
  match f, r with
  | .join (.emplace _ p), true => { h with joined := p :: h.joined }
  | .free p, _ => { h with returned := p :: h.returned }
  | _, _ => h

/-- `ReleasePlayer` is about to free the player. -/
@[simp] def Frame.frees (p : Nat) : Frame → Nat
  | .free q => share q p
  | _ => 0

/-- The player is in the map, or some thread has still to release it. -/
def InUse (s : Conf Frame ChatServer) (p : Nat) : Prop :=
  (∃ sessionID, s.mem.players sessionID = some p) ∨ 0 < s.tally (Frame.holds p)

/-- A player in use is out of the pool and has not been returned since it
joined.  One that is not has been returned as often as it joined, or is being
returned. -/
structure Lifetime (s : Conf Frame ChatServer) (h : Ledger) : Prop where
  used : ∀ p, InUse s p → h.joined.count p = h.returned.count p + 1 ∧
    s.mem.playerPool.count p = 0 ∧ s.tally (Frame.fresh p) = 0
  unused : ∀ p, ¬ InUse s p → h.joined.count p = h.returned.count p + s.tally (Frame.frees p) ∧
    (p < s.mem.playerBlocks → s.mem.playerPool.count p + s.tally (Frame.fresh p) = 1)

/-- The thread is in the `ReleasePlayer` of the last holder of a player that is
not in the map. -/
def lastRelease (s : Conf Frame ChatServer) (t : Nat) : Bool :=
  match s.top t with
  | some (.release p) =>
      decide (s.mem.players (s.mem.player p).sessionID ≠ some p ∧ s.tally (Frame.holds p) = 1)
  | _ => false

variable {s s' : Conf Frame ChatServer} {m : ChatServer} {c : Choice}

/-! ## Who uses a player -/

theorem Owned.published_of_inUse (owned : Owned s) {p : Nat} (inUse : InUse s p) :
    Published s p := by
  rcases inUse with ⟨sessionID, joined⟩ | held
  · exact (owned.mapped joined).1
  · obtain ⟨stack, member, f, inside, pos⟩ := Conf.exists_of_tally_pos held
    exact (owned.fits stack member f inside).published_of_holds pos

theorem Owned.frees (owned : Owned s) (p : Nat) : s.tally (Frame.frees p) = 0 := by
  refine Conf.tally_eq_zero fun stack member f inside => ?_
  have fits := owned.fits stack member f inside
  cases f with
  | free q => exact fits.elim
  | _ => rfl

/-- What `Lifetime` comes to, as long as the invariant of the players holds. -/
structure Balanced (s : Conf Frame ChatServer) (h : Ledger) : Prop where
  inUse : ∀ p, Published s p → InUse s p
  joined : ∀ p, Published s p → h.joined.count p = h.returned.count p + 1
  unjoined : ∀ p, ¬ Published s p → h.joined.count p = h.returned.count p

theorem Balanced.lifetime {h : Ledger} (balanced : Balanced s h) (owned : Owned s) :
    Lifetime s h := by
  constructor
  · intro p inUse
    have pub := owned.published_of_inUse inUse
    exact ⟨balanced.joined p pub, pub.out, pub.alone⟩
  · intro p unused
    have unpublished : ¬ Published s p := fun pub => unused (balanced.inUse p pub)
    rw [owned.frees p]
    refine ⟨balanced.unjoined p unpublished, fun made => ?_⟩
    have single := owned.single p
    rw [if_pos made] at single
    rw [published_iff] at unpublished
    omega

section Step

variable {t : Nat} {f : Frame} {rest fs : List Frame}
  (here : s.threads[t]? = some (f :: rest))

include here in
/-- Who uses a player goes on to, unless it releases it as the last. -/
theorem inUse_does (owned : Owned s) (does : Does s f fs m) (kept : lastRelease s t = false)
    {q : Nat} (inUse : InUse s q) : InUse (after s t fs rest m) q := by
  have stays : ∀ {fs : List Frame} {m : ChatServer}, m.players = s.mem.players →
      f.holds q ≤ (fs.map (Frame.holds q)).sum → InUse (after s t fs rest m) q := by
    intro fs m players holds
    have exchanged := tally_after m fs here (Frame.holds q)
    rcases inUse with ⟨sessionID, joined⟩ | held
    · exact Or.inl ⟨sessionID, (congrFun players sessionID).trans joined⟩
    · exact Or.inr (by omega)
  have fits := owned.fits _ (List.mem_of_getElem? here) _ List.mem_cons_self
  cases does with
  | calm calm fresh holds _ => exact stays calm.players (holds q).ge
  | acquire joined => exact stays rfl (Nat.zero_le _)
  | @release p _ =>
      rcases eq_or_ne p q with rfl | different
      · have exchanged := tally_after (s.mem.updatePlayer p fun k => { k with ref := k.ref - 1 })
          [] here (Frame.holds p)
        have own : Frame.holds p (.release p) = 1 := share_self p
        have top : s.top t = some (.release p) := Conf.top_of_here here
        rw [lastRelease, top] at kept
        simp only [ne_eq, decide_eq_false_iff_not, not_and] at kept
        by_cases joined : s.mem.players (s.mem.player p).sessionID = some p
        · exact Or.inl ⟨_, joined⟩
        · refine Or.inr ?_
          have part := Conf.le_tally (w := Frame.holds p) (List.mem_of_getElem? here)
            List.mem_cons_self
          have others : s.tally (Frame.holds p) ≠ 1 := fun one => joined (by tauto)
          rw [List.map_nil, List.sum_nil] at exchanged
          omega
      · exact stays rfl (share_of_ne different).le
  | @last p last =>
      have counted := owned.counted fits
      have own := Conf.le_tally (w := Frame.holds p) (List.mem_of_getElem? here)
        List.mem_cons_self
      have one : Frame.holds p (.release p) = 1 := share_self p
      omega
  | alloc => exact stays (allocPlayer_cases Prod.mk.eta.symm).1 (Nat.zero_le _)
  | prepare => exact stays rfl (Nat.zero_le _)
  | @publish sessionID p absent =>
      have exchanged : (after s t [] rest (mapped s.mem sessionID p)).tally (Frame.holds q) =
          s.tally (Frame.holds q) := tally_after _ _ here (Frame.holds q)
      rcases inUse with ⟨other, joined⟩ | held
      · refine Or.inl ⟨other, (Function.update_of_ne ?_ ..).trans joined⟩
        rintro rfl
        rw [absent] at joined
        cases joined
      · exact Or.inr (by omega)
  | discard => exact stays rfl (Nat.zero_le _)
  | @erase sessionID p joined =>
      have exchanged : (after s t [.leave sessionID p .isLogined, .release p] rest
          (erased s.mem sessionID p)).tally (Frame.holds q) =
            s.tally (Frame.holds q) + share p q := by
        have moved := tally_after (erased s.mem sessionID p)
          [.leave sessionID p .isLogined, .release p] here (Frame.holds q)
        simpa using moved
      rcases inUse with ⟨other, joined'⟩ | held
      · rcases eq_or_ne other sessionID with rfl | elsewhere
        · obtain rfl := Option.some.inj (joined.symm.trans joined')
          rw [share_self] at exchanged
          exact Or.inr (by omega)
        · exact Or.inl ⟨other, (Function.update_of_ne elsewhere ..).trans joined'⟩
      · exact Or.inr (by omega)

theorem inUse_of_publish {sessionID : UINT64} {q : Nat} (publish : f = .join (.emplace sessionID q))
    (does : Does s f [] m) : InUse (after s t [] rest m) q := by
  subst publish
  cases does with
  | calm calm fresh holds _ =>
      have own := fresh q
      rw [show Frame.fresh q (.join (.emplace sessionID q)) = 1 from share_self q] at own
      cases own
  | publish absent => exact Or.inl ⟨sessionID, Function.update_self ..⟩

end Step

/-! ## The record -/

/-- What the ledger makes of a place, given what the place knows. -/
theorem Ledger.note_cases (t : Nat) {f : Frame} (rest : List Frame) {r : f.act.α} (h : Ledger)
    (fits : f.Fits s) :
    (∃ sessionID p, f = .join (.emplace sessionID p) ∧ f.act.next r = [] ∧
        note t f rest r h = { h with joined := p :: h.joined }) ∨
      ((∀ sessionID p, ¬ (f = .join (.emplace sessionID p) ∧ f.act.next r = [])) ∧
        note t f rest r h = h) := by
  cases f with
  | join pc =>
      cases pc with
      | emplace sessionID p =>
          cases r with
          | true => exact Or.inl ⟨sessionID, p, rfl, rfl, rfl⟩
          | false => exact Or.inr ⟨by simp, rfl⟩
      | _ => exact Or.inr ⟨by simp, rfl⟩
  | free p => exact fits.elim
  | _ => exact Or.inr ⟨by simp, rfl⟩

variable {h : Ledger} {t : Nat} {p q : Conf Frame ChatServer × Ledger}

theorem Balanced.step (owned : Owned p.1) (balanced : Balanced p.1 p.2)
    (kept : lastRelease p.1 t = false) (step : chatServer.noted Ledger.note p t c = some q) :
    Balanced q.1 q.2 := by
  obtain ⟨f, rest, r, m, here, done, rfl⟩ := chat_noted_cases step
  have fits := owned.fits _ (List.mem_of_getElem? here) _ List.mem_cons_self
  have does := Frame.does fits done
  have published := published_does owned here does
  have inUse : ∀ k, Published p.1 k → InUse (after p.1 t (f.act.next r) rest m) k := fun k pub =>
    inUse_does here owned does kept (balanced.inUse k pub)
  rcases Ledger.note_cases t rest p.2 fits with
    ⟨sessionID, k, emplace, ends, note⟩ | ⟨other, note⟩
  · -- the step publishes `k`, which nobody had joined with
    have unpublished : ¬ Published p.1 k := by
      refine not_published_of_fresh (List.mem_of_getElem? here) List.mem_cons_self ?_
      rw [emplace, show Frame.fresh k (.join (.emplace sessionID k)) = 1 from share_self k]
      exact Nat.one_pos
    have new : ∀ j, Published (after p.1 t (f.act.next r) rest m) j ↔ j = k ∨ Published p.1 j := by
      intro j
      rw [published j, ends, emplace]
      simp [eq_comm]
    have counts : ∀ j : Nat, (k :: p.2.joined).count j = p.2.joined.count j + share k j :=
      fun j => count_cons_share k j p.2.joined
    refine ⟨?_, ?_, ?_⟩
    · intro j pub
      rcases (new j).mp pub with rfl | before
      · exact ends ▸ inUse_of_publish emplace (ends ▸ does)
      · exact inUse j before
    · intro j pub
      show (Ledger.note t f rest r p.2).joined.count j = _
      rw [note]
      show (k :: p.2.joined).count j = p.2.returned.count j + 1
      rw [counts j]
      rcases (new j).mp pub with rfl | before
      · rw [share_self, balanced.unjoined j unpublished]
      · rw [share_of_ne, balanced.joined j before]
        rintro rfl
        exact unpublished before
    · intro j unpublished'
      rw [note]
      show (k :: p.2.joined).count j = p.2.returned.count j
      have apart : ¬ (j = k ∨ Published p.1 j) := fun either => unpublished' ((new j).mpr either)
      rw [counts j, share_of_ne fun same => apart (Or.inl same.symm),
        balanced.unjoined j fun pub => apart (Or.inr pub)]
      rfl
  · have same : ∀ j, Published (after p.1 t (f.act.next r) rest m) j ↔ Published p.1 j := by
      intro j
      rw [published j]
      refine or_iff_right ?_
      rintro ⟨sessionID, both⟩
      exact other sessionID j both
    rw [note]
    exact ⟨fun j pub => inUse j ((same j).mp pub), fun j pub => balanced.joined j ((same j).mp pub),
      fun j unpublished => balanced.unjoined j fun pub => unpublished ((same j).mpr pub)⟩

/-- The count of the map stays behind: after the last `ReleasePlayer` the player
is nobody's, and not in the pool. -/
theorem Balanced.not_lifetime (owned : Owned p.1) (balanced : Balanced p.1 p.2)
    (last : lastRelease p.1 t = true) (step : chatServer.noted Ledger.note p t c = some q) :
    ¬ Lifetime q.1 q.2 := by
  have owned' : Owned q.1 := owned_step owned (Machine.step_of_noted step)
  obtain ⟨f, rest, r, m, here, done, rfl⟩ := chat_noted_cases step
  have top : p.1.top t = some f := Conf.top_of_here here
  rw [lastRelease, top] at last
  cases f with
  | release k =>
      simp only [ne_eq, decide_eq_true_eq] at last
      obtain ⟨unmapped, one⟩ := last
      have pub : Published p.1 k := owned.fits _ (List.mem_of_getElem? here) _ List.mem_cons_self
      cases done
      have left : (p.1.mem.player k).ref - 1 ≠ 0 := by
        have counted := owned.counted pub
        omega
      have unheld : (after p.1 t [] rest
          (p.1.mem.updatePlayer k fun x => { x with ref := x.ref - 1 })).tally
            (Frame.holds k) = 0 := by
        have exchanged := tally_after
          (p.1.mem.updatePlayer k fun x => { x with ref := x.ref - 1 }) [] here (Frame.holds k)
        rw [show Frame.holds k (.release k) = 1 from share_self k, one, List.map_nil,
          List.sum_nil] at exchanged
        omega
      dsimp only [Frame.act] at owned' ⊢
      rw [if_neg left] at owned' ⊢
      intro life
      obtain ⟨counts, -⟩ := life.unused k (by
        rintro (⟨sessionID, joined⟩ | held)
        · have session := (owned.mapped joined).2.1
          exact unmapped (session.symm ▸ joined)
        · exact absurd unheld (Nat.pos_iff_ne_zero.mp held))
      rw [owned'.frees k] at counts
      have joined := balanced.joined k pub
      change p.2.joined.count k = p.2.returned.count k + 0 at counts
      omega
  | _ => cases last

theorem balanced_boot (redis workers : Nat) : Balanced (boot redis workers) .empty where
  inUse := by
    rintro p ⟨made, -, -⟩
    cases made
  joined := by
    rintro p ⟨made, -, -⟩
    cases made
  unjoined _ _ := rfl

/-- **The lifetime of a player**, for any threads: while no `ReleasePlayer` is
the last of a player out of the map, every player is returned exactly once and
exactly then; the first that is breaks it. -/
theorem lifetime_of_run {redis workers : Nat} {s : Conf Frame ChatServer} {h : Ledger}
    (run : chatServer.NotedSteps Ledger.note (fun s t _ => lastRelease s t = false)
      (boot redis workers, .empty) (s, h)) :
    Lifetime s h ∧ ∀ t c q, chatServer.noted Ledger.note (s, h) t c = some q →
      (Lifetime q.1 q.2 ↔ lastRelease s t = false) := by
  have both : Owned s ∧ Balanced s h := by
    refine run.invariant (I := fun s h => Owned s ∧ Balanced s h)
      ⟨owned_boot redis workers, balanced_boot redis workers⟩ ?_
    rintro p t c q ⟨owned, balanced⟩ kept step
    exact ⟨owned_step owned (Machine.step_of_noted step), balanced.step owned kept step⟩
  obtain ⟨owned, balanced⟩ := both
  refine ⟨balanced.lifetime owned, fun t c q step => ⟨fun life => ?_, fun kept => ?_⟩⟩
  · by_contra last
    rw [Bool.not_eq_false] at last
    exact balanced.not_lifetime owned last step life
  · exact (balanced.step owned kept step).lifetime (owned_step owned (Machine.step_of_noted step))

/-- What a worker does, without a request. -/
def calls (call : Call) : Choice := ⟨call, true, 0, 0⟩

/-- A session joins and leaves. -/
def joinAndLeave : List (Nat × Choice) :=
  (0, calls (.join 5 1)) :: List.replicate 3 (0, calls (.join 5 1)) ++
    (0, calls (.leave 1)) :: List.replicate 6 (0, calls (.leave 1))

/-- Session 1 sends a heartbeat. -/
def beat : Choice :=
  calls (.recv ⟨7, 0, 0, 0, fun _ => 0⟩ 0 1
    (CPacket.received 0 (bytesOf en_PACKET_CS_CHAT_REQ_HEARTBEAT)))

/-- A worker handles a request of a session that has joined.  The player is in the
map, so that the `ReleasePlayer` behind the request is not the last one: the player
is in use before and after it, and is not returned. -/
theorem lifetime_of_run_request :
    ∃ s₁ h₁ s h, chatServer.NotedSteps Ledger.note (fun s t _ => lastRelease s t = false)
        (boot 0 1, .empty) (s₁, h₁) ∧ s₁.top 0 = some (.release 0) ∧
      chatServer.NotedSteps Ledger.note (fun s t _ => lastRelease s t = false) (s₁, h₁) (s, h) ∧
      s.top 0 = some .worker ∧ h.joined = [0] ∧ h.returned = [] ∧ Lifetime s h := by
  have reached : ((chatServer.runNoted Ledger.note (fun s t _ => lastRelease s t = false)
      (joinAndLeave.take 4 ++ List.replicate 4 (0, beat)) (boot 0 1, .empty)).bind fun p =>
        (chatServer.runNoted Ledger.note (fun s t _ => lastRelease s t = false) [(0, beat)] p).map
          fun q => (p.1.top 0, q.1.top 0, q.2.joined, q.2.returned)) =
      some (some (.release 0), some .worker, [0], []) := rfl
  obtain ⟨⟨s₁, h₁⟩, handled, rest⟩ := Option.bind_eq_some_iff.mp reached
  obtain ⟨⟨s, h⟩, released, found⟩ := Option.map_eq_some_iff.mp rest
  simp only [Prod.mk.injEq] at found
  obtain ⟨top, top', joined, returned⟩ := found
  have run := Machine.NotedSteps.of_run handled
  have later := Machine.NotedSteps.of_run released
  exact ⟨s₁, h₁, s, h, run, top, later, top', joined, returned,
    (lifetime_of_run (run.trans later)).1⟩

/-- Nobody uses the player of a session that has come and gone, and it is not in
the pool. -/
theorem not_lifetime_of_leave :
    ¬ ∀ redis workers s h, chatServer.NotedSteps Ledger.note (fun _ _ _ => True)
      (boot redis workers, .empty) (s, h) → Lifetime s h := by
  intro all
  have reached : (chatServer.runNoted Ledger.note (fun _ _ _ => True) joinAndLeave
      (boot 0 1, .empty)).map (fun q => (q.2.joined, q.2.returned, (q.1.mem.player 0).closing,
        q.1.tally (Frame.frees 0), q.1.tally (Frame.holds 0))) =
        some ([0], [], true, 0, 0) := by decide +kernel
  obtain ⟨⟨s, h⟩, run, found⟩ := Option.map_eq_some_iff.mp reached
  simp only [Prod.mk.injEq] at found
  obtain ⟨joined, returned, closing, freed, held⟩ := found
  have steps := Machine.NotedSteps.of_run run
  have owned := owned_steps steps.steps
  obtain ⟨counts, -⟩ := (all 0 1 s h steps).unused 0 (by
    rintro (⟨sessionID, mapped⟩ | holding)
    · have opened := (owned.mapped mapped).2.2
      rw [closing] at opened
      cases opened
    · exact absurd held (Nat.pos_iff_ne_zero.mp holding))
  rw [joined, returned, freed] at counts
  cases counts

end ChatThreads

end ChattingServer
