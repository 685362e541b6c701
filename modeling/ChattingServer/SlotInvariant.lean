import ChattingServer.SlotPlaces
import Mathlib.Data.List.Nodup

/-!
# Each index in one place

An index is in `indexStack`, or its slot is in the hands of one thread, or the
slot's `ioCount` is not zero; never two of these (`Accounted`).  Two operations
of the source break that: the increment of a `SessionLock` on a slot that
nothing holds, and a first `WSARecv` that is not accepted.  `Guarded` leaves
these out.
-/

namespace ChattingServer

variable {n : Nat}

/-- Nobody locks a session on a slot that nothing holds, and the first
`WSARecv` of a session is accepted. -/
def Guarded (s : Conf (Frame n) (Shared n)) (t : Nat) (c : Choice n) : Prop :=
  match s.top t with
  | some (.lock id _) => ∀ i : Fin n, getSessionIndex id = i → (s.mem.slot i).ioCount ≠ 0
  | some (.postRecv .issue _ .accept) =>
      match c with
      | .outcome accepted => accepted = true
      | _ => False
  | _ => True

/-- How many sessions there are in slot `i`: created, and the index not yet
back in `indexStack`. -/
def sessions (s : Conf (Frame n) (Shared n)) (i : Fin n) : Nat :=
  s.tally (Frame.token i) + (s.mem.slot i).live

/-- A place that keeps a session alive works on a held slot, or holds it. -/
theorem asks_or_holds_of_renews {i : Fin n} {f : Frame n} (renews : 0 < f.renews i) :
    f.asks = some i ∨ 0 < f.holds i := by
  cases f with
  | recvComplete pc j => exact Or.inl (congrArg some (eq_of_share_pos renews))
  | alloc use =>
      cases use with
      | frame j => exact Or.inl (congrArg some (eq_of_share_pos renews))
      | _ => cases renews
  | setRef p use =>
      cases use with
      | frame j => exact Or.inl (congrArg some (eq_of_share_pos renews))
      | _ => cases renews
  | postRecv pc j who =>
      cases pc with
      | issue => exact Or.inr renews
      | undo => exact Or.inr renews
      | _ =>
          cases who with
          | accept => cases renews
          | worker => exact Or.inl (congrArg some (eq_of_share_pos renews))
  | disConnect pc j =>
      cases pc with
      | cas => exact Or.inl (congrArg some (eq_of_share_pos renews))
      | _ => cases renews
  | _ => cases renews

/-- On a slot that nothing holds no receive is outstanding, and nobody is about
to post one. -/
theorem quiet_of_free {s : Conf (Frame n) (Shared n)} {i : Fin n}
    (held : (s.mem.slot i).outside = s.tally (Frame.holds i)) (anchored : s.Forall Anchored)
    (free : (s.mem.slot i).ioCount = 0) :
    (s.mem.slot i).recvOut = 0 ∧ s.tally (Frame.renews i) = 0 := by
  unfold Session.outside at held
  refine ⟨by omega, ?_⟩
  by_contra renewed
  obtain ⟨stack, member, f, inside, renews⟩ := Conf.exists_of_tally_pos (Nat.pos_of_ne_zero renewed)
  have holder : ∃ g ∈ stack, 0 < g.holds i := by
    rcases asks_or_holds_of_renews renews with asks | holds
    · obtain ⟨g, there, anchors⟩ := (anchored stack member).exists_offer inside asks
      exact ⟨g, there, Frame.holds_of_anchors anchors⟩
    · exact ⟨f, inside, holds⟩
  obtain ⟨g, there, holds⟩ := holder
  have part := Conf.le_tally (w := Frame.holds i) member there
  omega

structure Accounted (s : Conf (Frame n) (Shared n)) : Prop where
  held : ∀ i, (s.mem.slot i).outside = s.tally (Frame.holds i)
  once : ∀ i : Fin n, s.mem.server.indexStack.count ↑i + sessions s i = 1
  inside : ∀ index ∈ s.mem.server.indexStack, index < n
  free : ∀ i : Fin n, ↑i ∈ s.mem.server.indexStack → (s.mem.slot i).isReleased = false
  sound : ∀ stack ∈ s.threads, ∀ f ∈ stack, f.Sound s.mem
  anchored : s.Forall Anchored
  indexed : ∀ i : Fin n, 0 < (s.mem.slot i).live → (s.mem.slot i).index = i
  renewed : ∀ i, 0 < (s.mem.slot i).live → (s.mem.slot i).isReleased = false →
    0 < (s.mem.slot i).recvOut + s.tally (Frame.renews i)
  counted : s.mem.server.sessionCount + s.mem.server.indexStack.length +
    s.tally Frame.uncounted = n + s.tally Frame.overcounted

/-- Only `ReleaseSession` pushes an index. -/
theorem eq_of_pushedIndex {i : Nat} {f : Frame n} (pushes : 0 < f.act.op.pushedIndex i) :
    ∃ j, f = .releaseSession (.push i) j := by
  by_cases outside : f.outside = true
  · rw [Op.pushedIndex_of_aside (Frame.aside_of_outside outside)] at pushes
    cases pushes
  cases f with
  | releaseSession pc j =>
      cases pc with
      | push index =>
          have own : index = i := by
            by_contra other
            have none : share index i = 0 := share_of_ne other
            exact absurd pushes (Nat.not_lt.mpr none.le)
          exact ⟨j, by rw [own]⟩
      | _ => cases pushes
  | acceptThread pc => cases pc <;> cases pushes
  | disConnect pc j => cases pc <;> cases pushes
  | undefined => cases pushes
  | _ => exact absurd rfl outside

theorem eq_of_starts {i : Fin n} {f : Frame n} (starts : 0 < f.starts i) :
    f = .postRecv .inc i .accept := by
  cases f with
  | postRecv pc j who =>
      cases pc with
      | inc =>
          cases who with
          | accept =>
              have own : j = i := by
                by_contra other
                have none : share j i = 0 := share_of_ne other
                exact absurd starts (Nat.not_lt.mpr none.le)
              rw [own]
          | worker => cases starts
      | _ => cases starts
  | _ => cases starts

theorem mem_of_popIndex {s s' : Server} {index : Nat}
    (popped : ServerOp.popIndex.exec s = some (index, s')) : index ∈ s.indexStack := by
  obtain ⟨indexStack, sessionCount, sessionID, log⟩ := s
  cases indexStack with
  | nil => cases popped
  | cons first left =>
      cases popped
      exact List.mem_cons_self

namespace Accounted

section Consequences

variable {s : Conf (Frame n) (Shared n)} (inv : Accounted s) {i : Fin n}
  {stack : List (Frame n)} {f : Frame n}
include inv

theorem ioCount_nonneg : 0 ≤ (s.mem.slot i).ioCount := by
  have held := inv.held i
  unfold Session.outside at held
  omega

/-- Who will take an increment back still has it. -/
theorem ioCount_pos_of_holds (member : stack ∈ s.threads) (inside : f ∈ stack)
    (holds : 0 < f.holds i) : 0 < (s.mem.slot i).ioCount := by
  have held := inv.held i
  have part := Conf.le_tally (w := Frame.holds i) member inside
  unfold Session.outside at held
  omega

/-- Who works on a slot has it held. -/
theorem ioCount_pos_of_asks (member : stack ∈ s.threads) (inside : f ∈ stack)
    (asks : f.asks = some i) : 0 < (s.mem.slot i).ioCount := by
  obtain ⟨g, there, anchors⟩ := (inv.anchored stack member).exists_offer inside asks
  exact inv.ioCount_pos_of_holds member there (Frame.holds_of_anchors anchors)

/-- Nothing holds a slot that a thread has in hand. -/
theorem free_of_token (member : stack ∈ s.threads) (inside : f ∈ stack)
    (token : 0 < f.token i) :
    (s.mem.slot i).ioCount = 0 ∧ ↑i ∉ s.mem.server.indexStack := by
  have once := inv.once i
  have part := Conf.le_tally (w := Frame.token i) member inside
  unfold sessions at once
  refine ⟨?_, ?_⟩
  · by_contra held
    have live : (s.mem.slot i).live = 1 := if_neg held
    omega
  · intro stacked
    have count := List.count_pos_iff.mpr stacked
    omega

end Consequences

section Step

variable {s : Conf (Frame n) (Shared n)} (inv : Accounted s) {t : Nat} {c : Choice n}
  {f : Frame n} {rest : List (Frame n)} (here : s.threads[t]? = some (f :: rest))
include inv here

theorem sound_top : f.Sound s.mem :=
  inv.sound _ (List.mem_of_getElem? here) f List.mem_cons_self

theorem not_stray : ¬ f.Stray := by
  have sound := inv.sound_top here
  cases f with
  | postRecv pc i who =>
      cases pc <;> cases who <;> first | exact False.elim sound | exact fun stray => stray
  | sessionLock pc i id use =>
      cases pc <;> first | exact False.elim sound | exact fun stray => stray
  | _ => exact fun stray => stray

/-- The guard and the invariant give the results that the source relies on. -/
theorem expected {r : f.act.α} {m : Shared n} (done : exec f.act.op c s.mem = some (r, m))
    (guarded : Guarded s t c) : f.Expected r := by
  have sound := inv.sound_top here
  have member := List.mem_of_getElem? here
  have top : s.top t = some f := Conf.top_of_here here
  cases f with
  | acceptThread pc =>
      cases pc with
      | pop sock =>
          obtain ⟨⟨index, server⟩, popped, same⟩ := Option.map_eq_some_iff.mp done
          cases same
          exact inv.inside _ (mem_of_popIndex popped)
      | _ => trivial
  | postRecv pc i who =>
      cases pc with
      | check =>
          cases who with
          | accept =>
              cases done
              exact sound.1
          | worker => trivial
      | issue =>
          cases who with
          | accept =>
              unfold Guarded at guarded
              rw [top] at guarded
              cases c with
              | outcome ok =>
                  obtain rfl : ok = true := guarded
                  cases done
                  rfl
              | _ => exact guarded.elim
          | worker => trivial
      | _ => trivial
  | disConnect pc i =>
      cases pc with
      | check =>
          have held := inv.ioCount_pos_of_asks member List.mem_cons_self rfl (i := i)
          cases done
          exact decide_eq_false held.ne'
      | _ => trivial
  | sessionLock pc i id use =>
      cases pc with
      | idAgain =>
          cases done
          exact decide_eq_true sound.symm
      | _ => trivial
  | workerThread pc =>
      cases pc with
      | check i =>
          cases done
          exact sound.1
      | _ => trivial
  | _ => trivial

/-- Operations on `ioCount` find it as their place takes it to be. -/
theorem fits (guarded : Guarded s t c) (i : Fin n) :
    f.act.op.Fits i (f.starts i) (s.mem.slot i) := by
  have member := List.mem_of_getElem? here
  have top : s.top t = some f := Conf.top_of_here here
  have grabs : ∀ {j : Fin n}, 0 < (s.mem.slot j).ioCount →
      (Op.session j .incIo).Fits i 0 (s.mem.slot i) := by
    intro j held
    refine Op.fits_session ?_ fun _ => rfl
    rintro rfl
    exact ⟨held.le, (Nat.zero_add _).trans (Session.live_of_pos held)⟩
  have drops : ∀ {j : Fin n}, 0 < (s.mem.slot j).ioCount →
      (Op.session j .decIo).Fits i 0 (s.mem.slot i) := by
    intro j held
    refine Op.fits_session ?_ fun _ => rfl
    rintro rfl
    exact ⟨held, rfl⟩
  have one (j : Fin n) : 0 < share j j := (share_self j).ge
  have self : f ∈ f :: rest := List.mem_cons_self
  cases f with
  | lock id use =>
      rcases Frame.act_lock_cases id use with ⟨j, named, act⟩ | act
      · rw [act]
        unfold Guarded at guarded
        rw [top] at guarded
        have held := guarded j named
        have nonneg := inv.ioCount_nonneg (i := j)
        exact grabs (lt_of_le_of_ne nonneg held.symm)
      · rw [act]
        rfl
  | postRecv pc j who =>
      cases pc with
      | inc =>
          cases who with
          | accept =>
              have free := (inv.free_of_token member self (one j)).1
              refine Op.fits_session ?_ fun other => share_of_ne other
              rintro rfl
              refine ⟨free.ge, ?_⟩
              rw [Session.live_of_zero free]
              exact share_self j
          | worker => exact grabs (inv.ioCount_pos_of_asks member self rfl)
      | undo => exact drops (inv.ioCount_pos_of_holds member self (one j))
      | _ => exact Op.fits_of_not_counts rfl
  | postSend pc j =>
      cases pc with
      | inc => exact grabs (inv.ioCount_pos_of_asks member self rfl)
      | undo => exact drops (inv.ioCount_pos_of_holds member self (one j))
      | _ => exact Op.fits_of_not_counts rfl
  | disConnect pc j =>
      cases pc with
      | check =>
          refine Op.fits_session ?_ fun _ => rfl
          rintro rfl
          exact ⟨inv.ioCount_pos_of_asks member self rfl, rfl⟩
      | _ => exact Op.fits_of_not_counts rfl
  | sessionLock pc j id use =>
      cases pc with
      | fail => exact drops (inv.ioCount_pos_of_holds member self (one j))
      | failAgain => exact drops (inv.ioCount_pos_of_holds member self (one j))
      | _ => exact Op.fits_of_not_counts rfl
  | sessionUnLock j => exact drops (inv.ioCount_pos_of_holds member self (one j))
  | workerThread pc =>
      cases pc with
      | dec j => exact drops (inv.ioCount_pos_of_holds member self (one j))
      | _ => exact Op.fits_of_not_counts rfl
  | releaseSession pc j =>
      cases pc with
      | initIo index =>
          refine Op.fits_session ?_ fun _ => rfl
          rintro rfl
          exact ⟨(inv.free_of_token member self (one j)).1, rfl⟩
      | _ => exact Op.fits_of_not_counts rfl
  | acceptThread pc => cases pc <;> exact Op.fits_of_not_counts rfl
  | sendPacket pc j p => cases pc <;> exact Op.fits_of_not_counts rfl
  | sendComplete pc j => cases pc <;> exact Op.fits_of_not_counts rfl
  | recvComplete pc j => cases pc <;> exact Op.fits_of_not_counts rfl
  | _ => exact Op.fits_of_not_counts rfl

theorem anchored_step (r : f.act.α) (m : Shared n) :
    (Conf.mk m (s.threads.set t (f.act.next r ++ rest))).Forall Anchored :=
  Machine.forall_step inv.anchored here (anchored_next f rest r (inv.not_stray here))

/-- Nobody but `DisConnect` changes a slot that is held or free. -/
theorem eq_of_marks {i : Fin n}
    (idle : 0 < s.mem.server.indexStack.count ↑i + (s.mem.slot i).live)
    (marks : f.act.op.marks i = true) : f = .disConnect .cas i := by
  rcases token_of_marks marks with token | disConnects
  · have once := inv.once i
    have part := Conf.le_tally (w := Frame.token i) (List.mem_of_getElem? here) List.mem_cons_self
    unfold sessions at once
    omega
  · exact disConnects

variable {r : f.act.α} {m : Shared n} (done : exec f.act.op c s.mem = some (r, m))
include done

/-- What the other places take for granted goes on to hold. -/
theorem sound_stayed : ∀ stack ∈ s.threads.set t rest, ∀ g ∈ stack, g.Sound m := by
  intro stack member g inside
  have top := List.mem_of_getElem? here
  have before : g.Sound s.mem := by
    obtain ⟨stack', old, inside'⟩ := Machine.exists_of_stayed here member inside
    exact inv.sound stack' old g inside'
  refine before.of_same ?_ ?_
  · intro i token
    apply (slot_exec i done).marks
    by_contra marks
    have once := inv.once i
    have both := Machine.add_le_tally (Frame.token i) here member inside
    unfold sessions at once
    rcases token_of_marks (eq_true_of_ne_false marks) with first | disConnects
    · omega
    · have held := inv.ioCount_pos_of_asks top List.mem_cons_self (disConnects ▸ rfl) (i := i)
      have live := Session.live_of_pos held
      omega
  · intro i holds
    apply (slot_exec i done).names
    by_contra names
    have token := token_of_names (eq_true_of_ne_false names)
    have free := (inv.free_of_token top List.mem_cons_self (i := i) (by omega)).1
    have held := inv.held i
    have both := Machine.add_le_tally (Frame.holds i) here member inside
    unfold Session.outside at held
    omega

/-- What a place takes for granted outlasts its own operation, unless that is a
store to it. -/
theorem sound_kept (unmarked : ∀ i, 0 < f.token i → f.act.op.marks i = false)
    (unnamed : ∀ i, 0 < f.holds i → f.act.op.names i = false) : f.Sound m :=
  (inv.sound_top here).of_same (fun i token => (slot_exec i done).marks (unmarked i token))
    fun i holds => (slot_exec i done).names (unnamed i holds)

theorem free_step (i : Fin n) (member : ↑i ∈ m.server.indexStack) :
    (m.slot i).isReleased = false := by
  obtain ⟨stack, -⟩ := (server_exec done).account (i := i)
  have count := List.count_pos_iff.mpr member
  by_cases pushes : 0 < f.act.op.pushedIndex i
  · obtain ⟨j, rfl⟩ := eq_of_pushedIndex pushes
    obtain ⟨released, index⟩ := inv.sound_top here
    obtain rfl : i = j := Fin.ext index
    cases done
    exact released
  · have was : 0 < s.mem.server.indexStack.count ↑i := by omega
    have free := inv.free i (List.count_pos_iff.mp was)
    cases marks : f.act.op.marks i with
    | false =>
        rw [((slot_exec i done).marks marks).1]
        exact free
    | true =>
        have disConnects := inv.eq_of_marks here (by omega) marks
        have held := inv.ioCount_pos_of_asks (List.mem_of_getElem? here) List.mem_cons_self
          (disConnects ▸ rfl) (i := i)
        have live := Session.live_of_pos held
        have once := inv.once i
        unfold sessions at once
        omega

theorem inside_step (index : Nat) (member : index ∈ m.server.indexStack) : index < n := by
  obtain ⟨stack, -⟩ := (server_exec done).account (i := index)
  have count := List.count_pos_iff.mpr member
  by_cases pushes : 0 < f.act.op.pushedIndex index
  · obtain ⟨j, rfl⟩ := eq_of_pushedIndex pushes
    obtain ⟨-, own⟩ := inv.sound_top here
    exact own ▸ j.isLt
  · have was : 0 < s.mem.server.indexStack.count index := by omega
    exact inv.inside index (List.count_pos_iff.mp was)

omit inv here in
/-- A session that stays connected is passed on. -/
theorem not_gives {i : Fin n} (unmarked : f.act.op.marks i = false)
    (kept : (s.mem.slot i).isReleased = false) : ¬ f.gives i r := by
  intro gives
  cases f with
  | recvComplete pc j =>
      cases pc with
      | check =>
          obtain ⟨rfl, released⟩ := gives
          cases done
          exact Bool.false_ne_true (kept.symm.trans released)
      | _ => cases gives
  | postRecv pc j who =>
      cases pc with
      | check =>
          cases who with
          | accept => cases gives
          | worker =>
              obtain ⟨rfl, released⟩ := gives
              cases done
              exact Bool.false_ne_true (kept.symm.trans released)
      | _ => cases gives
  | disConnect pc j =>
      cases pc with
      | cas =>
          obtain rfl : j = i := gives
          exact of_decide_eq_false unmarked rfl
      | _ => cases gives
  | _ => cases gives

variable (guarded : Guarded s t c)
include guarded

theorem held_step (i : Fin n) :
    (m.slot i).outside =
      (Conf.mk m (s.threads.set t (f.act.next r ++ rest))).tally (Frame.holds i) := by
  obtain ⟨-, -, frames⟩ :=
    account_next i f r (inv.expected here done guarded) (inv.not_stray here)
  have memory := (slot_exec i done).held (inv.fits here guarded i)
  have tally := Machine.tally_step (Frame.holds i) here (f.act.next r) m
  have before := inv.held i
  omega

theorem once_step (i : Fin n) :
    m.server.indexStack.count ↑i +
      sessions (Conf.mk m (s.threads.set t (f.act.next r ++ rest))) i = 1 := by
  obtain ⟨frames, -⟩ :=
    account_next i f r (inv.expected here done guarded) (inv.not_stray here)
  obtain ⟨stack, -⟩ := (server_exec done).account (i := i)
  have pushed := pushedIndex_of_sound (inv.sound_top here) i
  have memory := (slot_exec i done).live (inv.fits here guarded i)
  have tally := Machine.tally_step (Frame.token i) here (f.act.next r) m
  have before := inv.once i
  unfold sessions at before ⊢
  dsimp only at tally ⊢
  omega

/-- Who lets go of a slot last finds its session disconnected. -/
theorem released_of_zeroed {i : Fin n} (zero : 0 < f.act.op.zeroed i r) :
    (s.mem.slot i).isReleased = true := by
  have step := slot_exec i done
  obtain ⟨live, free⟩ := step.zeroed (inv.fits here guarded i) zero
  by_contra kept
  have alive := inv.renewed i live.ge (eq_false_of_ne_true kept)
  have renews := renews_next i f r (not_gives_of_zeroed zero)
  have recvOut := step.recvOut
  have tally := Machine.tally_step (Frame.renews i) here (f.act.next r) m
  have quiet := quiet_of_free (inv.held_step here done guarded i) (inv.anchored_step here r m) free
  dsimp only at quiet tally
  omega

/-- Who lets go of a slot last goes on to `ReleaseSession` of a session that is
disconnected. -/
theorem sound_last {i : Fin n} (zero : 0 < f.act.op.zeroed i r)
    (unmarked : f.act.op.marks i = false) : (Frame.releaseSession .loadID i).Sound m := by
  have step := slot_exec i done
  obtain ⟨live, -⟩ := step.zeroed (inv.fits here guarded i) zero
  obtain ⟨released, index⟩ := step.marks unmarked
  refine ⟨?_, ?_⟩
  · rw [released]
    exact inv.released_of_zeroed here done guarded zero
  · rw [index]
    exact inv.indexed i live.ge

theorem indexed_step (i : Fin n) (live : 0 < (m.slot i).live) : (m.slot i).index = i := by
  have memory := (slot_exec i done).live (inv.fits here guarded i)
  by_cases was : 0 < (s.mem.slot i).live
  · cases marks : f.act.op.marks i with
    | false =>
        rw [((slot_exec i done).marks marks).2]
        exact inv.indexed i was
    | true =>
        obtain rfl := inv.eq_of_marks here (by omega) marks
        have kept : (m.slot i).index = (s.mem.slot i).index := by
          cases done
          rw [s.mem.slot_setSlot_self]
          rfl
        rw [kept]
        exact inv.indexed i was
  · obtain rfl := eq_of_starts (i := i) (f := f) (by omega)
    rw [((slot_exec i done).marks rfl).2]
    exact (inv.sound_top here).2

theorem renewed_step (i : Fin n) (live : 0 < (m.slot i).live)
    (kept : (m.slot i).isReleased = false) :
    0 < (m.slot i).recvOut +
      (Conf.mk m (s.threads.set t (f.act.next r ++ rest))).tally (Frame.renews i) := by
  have memory := (slot_exec i done).live (inv.fits here guarded i)
  have tally := Machine.tally_step (Frame.renews i) here (f.act.next r) m
  have own := Conf.le_tally (w := Frame.renews i) (List.mem_of_getElem? here) List.mem_cons_self
  by_cases was : 0 < (s.mem.slot i).live
  · cases marks : f.act.op.marks i with
    | false =>
        have stays := ((slot_exec i done).marks marks).1.symm.trans kept
        have alive := inv.renewed i was stays
        have renews := renews_next i f r (not_gives done marks stays)
        have recvOut := (slot_exec i done).recvOut
        omega
    | true =>
        obtain rfl := inv.eq_of_marks here (by omega) marks
        cases done
        rw [s.mem.slot_setSlot_self] at kept
        cases kept
  · obtain rfl := eq_of_starts (i := i) (f := f) (by omega)
    have next : (((Frame.postRecv .inc i .accept).act.next r).map (Frame.renews i)).sum = 1 := by
      simp [share_self]
    omega

theorem counted_step :
    m.server.sessionCount + m.server.indexStack.length +
        (Conf.mk m (s.threads.set t (f.act.next r ++ rest))).tally Frame.uncounted =
      n + (Conf.mk m (s.threads.set t (f.act.next r ++ rest))).tally Frame.overcounted := by
  obtain ⟨uncounted, overcounted⟩ := count_next f r (inv.expected here done guarded).indexed
  obtain ⟨-, length, count, -⟩ := (server_exec done).account (i := 0)
  have ins := Machine.tally_step Frame.uncounted here (f.act.next r) m
  have outs := Machine.tally_step Frame.overcounted here (f.act.next r) m
  have before := inv.counted
  omega

end Step

/-! ## What the next place takes for granted -/

section Next

variable {s : Conf (Frame n) (Shared n)} (inv : Accounted s) {t : Nat} {c : Choice n}
  {rest : List (Frame n)} {m : Shared n} (guarded : Guarded s t c)
include inv guarded

theorem sound_acceptThread {pc : AcceptThread n} {r : (Frame.acceptThread pc).act.α}
    (here : s.threads[t]? = some (.acceptThread pc :: rest))
    (done : exec (Frame.act (.acceptThread pc)).op c s.mem = some (r, m)) :
    ∀ g ∈ (Frame.acceptThread pc).act.next r, g.Sound m := by
  have sound := inv.sound_top here
  have kept := inv.sound_kept here done
  cases pc with
  | accept => cases r <;> simp [Frame.Sound]
  | full sock => cases r <;> simp [Frame.Sound]
  | pop sock =>
      have inside : @LT.lt Nat _ r n := inv.expected here done guarded
      obtain ⟨⟨index, server⟩, popped, same⟩ := Option.map_eq_some_iff.mp done
      cases same
      have free := inv.free ⟨r, inside⟩ (mem_of_popIndex popped)
      simp only [Frame.act, AcceptThread.act, dif_pos inside, List.mem_singleton]
      rintro g rfl
      exact free
  | setIndex i sock =>
      cases done
      rintro g (_ | ⟨_, ⟨⟩⟩)
      simp only [Frame.Sound, Shared.slot_setSlot_self, SessionOp.exec]
      exact ⟨sound, trivial⟩
  | nextID i sock | setID i sock id | setSock i sock | count i | loadID i | join i id =>
      have now := kept (fun _ _ => rfl) (fun _ none => absurd none (Nat.lt_irrefl 0))
      simpa [Frame.Sound] using now

theorem sound_postRecv {pc : PostRecv} {i : Fin n} {who : Caller}
    {r : (Frame.postRecv pc i who).act.α}
    (here : s.threads[t]? = some (.postRecv pc i who :: rest))
    (done : exec (Frame.act (.postRecv pc i who)).op c s.mem = some (r, m)) :
    ∀ g ∈ (Frame.postRecv pc i who).act.next r, g.Sound m := by
  have sound := inv.sound_top here
  have expected := inv.expected here done guarded
  cases who with
  | accept =>
      cases pc with
      | check =>
          -- a session that has just been accepted is not disconnected
          obtain rfl : r = false := expected
          have now := inv.sound_kept here done (fun _ _ => rfl)
            (fun _ none => absurd none (Nat.lt_irrefl 0))
          simpa [Frame.Sound] using now
      | inc => simp [Frame.Sound]
      | issue =>
          obtain rfl : r = true := expected
          exact List.forall_mem_nil _
      | undo => exact False.elim sound
  | worker =>
      cases pc with
      | undo =>
          cases r with
          | true =>
              have last := inv.sound_last here done guarded (i := i) (by simp) rfl
              simpa [Frame.Sound] using last
          | false => simp [Frame.Sound]
      | _ => cases r <;> simp [Frame.Sound]

theorem sound_disConnect {pc : DisConnect} {i : Fin n} {r : (Frame.disConnect pc i : Frame n).act.α}
    (here : s.threads[t]? = some (.disConnect pc i :: rest))
    (done : exec (Frame.act (.disConnect pc i)).op c s.mem = some (r, m)) :
    ∀ g ∈ (Frame.disConnect pc i).act.next r, g.Sound m := by
  have expected := inv.expected here done guarded
  cases pc with
  | check =>
      obtain rfl : r = false := expected
      exact List.forall_mem_nil _
  | cas => cases r <;> simp [Frame.Sound]
  | _ => simp [Frame.Sound]

omit guarded in
theorem sound_releaseSession {pc : ReleaseSession} {i : Fin n}
    {r : (Frame.releaseSession pc i : Frame n).act.α}
    (here : s.threads[t]? = some (.releaseSession pc i :: rest))
    (done : exec (Frame.act (.releaseSession pc i)).op c s.mem = some (r, m)) :
    ∀ g ∈ (Frame.releaseSession pc i).act.next r, g.Sound m := by
  have sound := inv.sound_top here
  have kept (unmarked : ∀ j, (Frame.releaseSession pc i).act.op.marks j = false) :=
    inv.sound_kept here done (fun j _ => unmarked j) (fun _ none => absurd none (Nat.lt_irrefl 0))
  cases pc with
  | initIndex index =>
      cases done
      rintro g (_ | ⟨_, ⟨⟩⟩)
      simp only [Frame.Sound, Shared.slot_setSlot_self, SessionOp.exec]
      exact sound
  | initReleased index =>
      cases done
      rintro g (_ | ⟨_, ⟨⟩⟩)
      simp only [Frame.Sound, Shared.slot_setSlot_self, SessionOp.exec]
      exact ⟨trivial, sound.2⟩
  | loadIndex =>
      have now := kept fun _ => rfl
      obtain rfl : r = (s.mem.slot i).index := by
        cases done
        rfl
      rintro g (_ | ⟨_, ⟨⟩⟩)
      exact ⟨now.1, sound.2⟩
  | drainSend | drainComplete | initDrainSend index | initDrainComplete index =>
      have now := kept fun _ => rfl
      cases r <;> simpa [Frame.Sound] using now
  | push index => simp [Frame.Sound]
  | count => simp
  | _ =>
      have now := kept fun _ => rfl
      simpa [Frame.Sound] using now

theorem sound_sessionLock {pc : SessionLock} {i : Fin n} {id : UINT64} {use : LockUse}
    {r : (Frame.sessionLock pc i id use : Frame n).act.α}
    (here : s.threads[t]? = some (.sessionLock pc i id use :: rest))
    (done : exec (Frame.act (.sessionLock pc i id use)).op c s.mem = some (r, m)) :
    ∀ g ∈ (Frame.sessionLock pc i id use).act.next r, g.Sound m := by
  have sound := inv.sound_top here
  have kept := inv.sound_kept here done (fun _ none => absurd none (Nat.lt_irrefl 0))
  cases pc with
  | id =>
      have looked : r = decide (id = (s.mem.slot i).sessionID) := by
        cases done
        rfl
      have same := (slot_exec i done).names rfl
      cases r with
      | true =>
          rintro g (_ | ⟨_, ⟨⟩⟩)
          exact same.trans (of_decide_eq_true looked.symm).symm
      | false => simp [Frame.Sound]
  | released =>
      have now := kept fun _ _ => rfl
      cases r with
      | true => simp [Frame.Sound]
      | false => simpa [Frame.Sound] using now
  | idAgain =>
      obtain rfl : r = true := inv.expected here done guarded
      have now := kept fun _ _ => rfl
      simpa [Frame.Sound] using now
  | releasedAgain => cases r <;> cases use <;> simp [Frame.Sound]
  | fail =>
      cases r with
      | true =>
          have last := inv.sound_last here done guarded (i := i) (by simp) rfl
          simpa [Frame.Sound] using last
      | false => simp
  | failAgain => exact False.elim sound

theorem sound_postSend {pc : PostSend} {i : Fin n} {r : (Frame.postSend pc i : Frame n).act.α}
    (here : s.threads[t]? = some (.postSend pc i :: rest))
    (done : exec (Frame.act (.postSend pc i)).op c s.mem = some (r, m)) :
    ∀ g ∈ (Frame.postSend pc i).act.next r, g.Sound m := by
  cases pc with
  | undo =>
      cases r with
      | true =>
          have last := inv.sound_last here done guarded (i := i) (by simp) rfl
          simpa [Frame.Sound] using last
      | false => simp
  | _ => exact fun g member => sound_of_plain (plain_next _ r rfl g member)

theorem sound_workerThread {pc : WorkerThread n} {r : (Frame.workerThread pc).act.α}
    (here : s.threads[t]? = some (.workerThread pc :: rest))
    (done : exec (Frame.act (.workerThread pc)).op c s.mem = some (r, m)) :
    ∀ g ∈ (Frame.workerThread pc).act.next r, g.Sound m := by
  cases pc with
  | idle =>
      obtain ⟨i, isSend, transferred⟩ := r
      cases isSend <;> cases transferred <;> simp [Completion.frames, Frame.Sound]
  | dec i =>
      cases r with
      | true =>
          have last := inv.sound_last here done guarded (i := i) (by simp) rfl
          simpa [Frame.Sound] using last
      | false => simp [Frame.Sound]
  | check i =>
      obtain rfl : r = true := inv.expected here done guarded
      have now := inv.sound_kept here done (fun _ _ => rfl)
        (fun _ none => absurd none (Nat.lt_irrefl 0))
      simpa [Frame.Sound] using now

/-- Where a thread goes on, what that place takes for granted holds. -/
theorem sound_next {f : Frame n} {r : f.act.α} (here : s.threads[t]? = some (f :: rest))
    (done : exec f.act.op c s.mem = some (r, m)) : ∀ g ∈ f.act.next r, g.Sound m := by
  cases f with
  | acceptThread pc => exact inv.sound_acceptThread guarded here done
  | postRecv pc i who => exact inv.sound_postRecv guarded here done
  | disConnect pc i => exact inv.sound_disConnect guarded here done
  | releaseSession pc i => exact inv.sound_releaseSession here done
  | sessionLock pc i id use => exact inv.sound_sessionLock guarded here done
  | postSend pc i => exact inv.sound_postSend guarded here done
  | workerThread pc => exact inv.sound_workerThread guarded here done
  | sessionUnLock i =>
      cases r with
      | true =>
          have last := inv.sound_last here done guarded (i := i) (by simp) rfl
          simpa [Frame.Sound] using last
      | false => simp
  | _ => exact fun g member => sound_of_plain (plain_next _ r rfl g member)

end Next

theorem step {s s' : Conf (Frame n) (Shared n)} {t : Nat} {c : Choice n} (inv : Accounted s)
    (guarded : Guarded s t c) (step : (iocp n).step s t c = some s') : Accounted s' := by
  obtain ⟨f, rest, r, m, here, done, rfl⟩ := iocp_step_cases step
  refine
    { held := inv.held_step here done guarded
      once := inv.once_step here done guarded
      inside := inv.inside_step here done
      free := inv.free_step here done
      sound := ?_
      anchored := inv.anchored_step here r m
      indexed := inv.indexed_step here done guarded
      renewed := inv.renewed_step here done guarded
      counted := inv.counted_step here done guarded }
  exact Machine.forall_frames_step here (inv.sound_next guarded here done)
    (inv.sound_stayed here done)

theorem boot (n : Nat) (sessionID : UINT64) (kinds : List ThreadKind) :
    Accounted (Shared.boot n sessionID kinds) := by
  have single := Shared.boot_frames n sessionID kinds
  have none (w : Frame n → Nat) (light : ∀ f : Frame n,
      (f = .acceptThread .accept ∨ ∃ kind : ThreadKind, f = kind.frame) → w f = 0) :
      (Shared.boot n sessionID kinds).tally w = 0 :=
    Conf.tally_eq_zero fun stack member f inside => light f (single stack member f inside)
  have tokens (i : Fin n) : (Shared.boot n sessionID kinds).tally (Frame.token i) = 0 := by
    apply none
    rintro f (rfl | ⟨kind, rfl⟩)
    · rfl
    · cases kind <;> rfl
  refine ⟨?_, ?_, ?_, ?_, ?_, ?_, ?_, ?_, ?_⟩
  · intro i
    have holds : (Shared.boot n sessionID kinds).tally (Frame.holds i) = 0 := by
      apply none
      rintro f (rfl | ⟨kind, rfl⟩)
      · rfl
      · cases kind <;> rfl
    rw [holds]
    rfl
  · intro i
    have stacked : (List.range n).count ↑i = 1 :=
      List.count_eq_one_of_mem List.nodup_range (List.mem_range.mpr i.isLt)
    unfold sessions
    rw [tokens]
    exact stacked
  · intro index member
    exact List.mem_range.mp member
  · intro i _
    rfl
  · intro stack member f inside
    rcases single stack member f inside with rfl | ⟨kind, rfl⟩
    · trivial
    · cases kind <;> trivial
  · intro stack member
    rcases List.mem_cons.mp member with rfl | other
    · exact supported_nil.cons_of_none rfl
    · obtain ⟨kind, -, rfl⟩ := List.mem_map.mp other
      apply supported_nil.cons_of_none
      cases kind <;> rfl
  · intro i live
    cases live
  · intro i live
    cases live
  · have uncounted : (Shared.boot n sessionID kinds).tally Frame.uncounted = 0 := by
      apply none
      rintro f (rfl | ⟨kind, rfl⟩)
      · rfl
      · cases kind <;> rfl
    have overcounted : (Shared.boot n sessionID kinds).tally Frame.overcounted = 0 := by
      apply none
      rintro f (rfl | ⟨kind, rfl⟩)
      · rfl
      · cases kind <;> rfl
    rw [uncounted, overcounted]
    show (0 : Int) + (List.range n).length + 0 = n + 0
    rw [List.length_range]
    omega

theorem of_run {n : Nat} {sessionID : UINT64} {kinds : List ThreadKind}
    {s : Conf (Frame n) (Shared n)}
    (run : (iocp n).Steps Guarded (Shared.boot n sessionID kinds) s) : Accounted s :=
  run.invariant (.boot n sessionID kinds)
    fun _ _ _ _ before guarded taken => before.step guarded taken

end Accounted

end ChattingServer
