import ChattingServer.SlotConservation

/-!
# The life of a slot

A slot goes round five phases: free, created, joined, closed, left.  Each way
to the next is an event of the record, with the ID and the socket of the session
that is in the slot (`Phase.Next`).  A run whose steps are guarded takes every
slot along such a path (`Lived.of_steps`): whatever a session goes through, it
goes through once, in this order.
-/

namespace ChattingServer

variable {n : Nat}

/-! ## Phases -/

/-- The slot that an event is about. -/
def Event.slot : Event → Nat
  | .create slot => slot
  | .join slot _ => slot
  | .leave slot _ => slot
  | .push slot _ => slot
  | .close slot _ => slot

/-- What the record says of a slot, oldest first. -/
def Server.history (s : Server) (i : Nat) : List Event :=
  (s.log.filter fun e => e.slot = i).reverse

/-- How far the session in a slot has come. -/
inductive Phase where
  | free
  | created
  | joined (id : UINT64) (sock : Nat)
  | closed (id : UINT64) (sock : Nat)
  | left (id : UINT64) (sock : Nat)

/-- What a session in slot `i` goes through. -/
def life (i : Nat) (id : UINT64) (sock : Nat) : List Event :=
  [.create i, .join i id, .close i (some sock), .leave i id, .push i i]

namespace Phase

/-- The way to the next phase. -/
inductive Next (i : Nat) : Phase → Event → Phase → Prop
  | create : Next i .free (.create i) .created
  | join (id : UINT64) (sock : Nat) : Next i .created (.join i id) (.joined id sock)
  | close (id : UINT64) (sock : Nat) :
      Next i (.joined id sock) (.close i (some sock)) (.closed id sock)
  | leave (id : UINT64) (sock : Nat) : Next i (.closed id sock) (.leave i id) (.left id sock)
  | push (id : UINT64) (sock : Nat) : Next i (.left id sock) (.push i i) .free

/-- The way from phase to phase, with all its events. -/
inductive Path (i : Nat) (p : Phase) : List Event → Phase → Prop
  | refl : Path i p [] p
  | tail {trace : List Event} {e : Event} {q r : Phase} (before : Path i p trace q)
      (next : Next i q e r) : Path i p (trace ++ [e]) r

/-- What the session in the slot has gone through. -/
def events (i : Nat) : Phase → List Event
  | .free => []
  | .created => (life i 0 0).take 1
  | .joined id sock => (life i id sock).take 2
  | .closed id sock => (life i id sock).take 3
  | .left id sock => (life i id sock).take 4

variable {i : Nat} {p q : Phase} {trace : List Event}

/-- From the free slot on, the events are those of whole lives and of the
session that is in the slot. -/
theorem Path.lives (path : Path i .free trace q) :
    ∃ past : List (UINT64 × Nat),
      trace = (past.flatMap fun session => life i session.1 session.2) ++ q.events i := by
  induction path with
  | refl => exact ⟨[], rfl⟩
  | tail before next ih =>
      obtain ⟨past, rfl⟩ := ih
      cases next with
      | push id sock =>
          refine ⟨past ++ [(id, sock)], ?_⟩
          rw [List.flatMap_append, List.append_assoc, List.append_assoc]
          rfl
      | create =>
          refine ⟨past, ?_⟩
          rw [List.append_assoc]
          rfl
      | join id sock =>
          refine ⟨past, ?_⟩
          rw [List.append_assoc]
          rfl
      | close id sock =>
          refine ⟨past, ?_⟩
          rw [List.append_assoc]
          rfl
      | leave id sock =>
          refine ⟨past, ?_⟩
          rw [List.append_assoc]
          rfl

/-- The session is in its slot, and has joined. -/
def Within (id : UINT64) (sock : Nat) (p : Phase) : Prop :=
  p = .joined id sock ∨ p = .closed id sock ∨ p = .left id sock

theorem Path.trans {r : Phase} {trace' : List Event} (first : Path i p trace q)
    (second : Path i q trace' r) : Path i p (trace ++ trace') r := by
  induction second with
  | refl =>
      rw [List.append_nil]
      exact first
  | tail _ next ih =>
      rw [← List.append_assoc]
      exact ih.tail next

end Phase

/-! ## Places -/

/-- The accept thread has popped index `i` and not yet called `OnClientJoin`. -/
@[simp] def Frame.unjoined (i : Fin n) : Frame n → Nat
  | .acceptThread (.nextID j _) => share j i
  | .acceptThread (.setID j _ _) => share j i
  | .acceptThread (.setIndex j _) => share j i
  | .acceptThread (.setSock j _) => share j i
  | .acceptThread (.count j) => share j i
  | .acceptThread (.loadID j) => share j i
  | .acceptThread (.join j _) => share j i
  | _ => 0

/-- A `ReleaseSession` has called `OnClientLeave` and not yet pushed the index. -/
@[simp] def Frame.emptying (i : Fin n) : Frame n → Nat
  | .releaseSession .loadID _ => 0
  | .releaseSession (.leave _) _ => 0
  | .releaseSession .count _ => 0
  | .releaseSession _ j => share j i
  | _ => 0

/-- A `DisConnect` has set `isReleased` and not yet closed the socket. -/
@[simp] def Frame.closing (i : Fin n) : Frame n → Nat
  | .disConnect .loadSock j => share j i
  | .disConnect (.close _) j => share j i
  | _ => 0

/-- A `DisConnect` has closed the socket and not yet cleared `sock`. -/
@[simp] def Frame.clearing (i : Fin n) : Frame n → Nat
  | .disConnect .clearSock j => share j i
  | _ => 0

@[simp] def ServerOp.joins (i : Nat) : {α : Type} → ServerOp α → Nat
  | _, .onClientJoin slot _ => share slot i
  | _, _ => 0

@[simp] def ServerOp.closes (i : Nat) : {α : Type} → ServerOp α → Nat
  | _, .closesocket slot _ => share slot i
  | _, _ => 0

@[simp] def SessionOp.wins : {α : Type} → SessionOp α → α → Nat
  | _, .casReleased, false => 1
  | _, _, _ => 0

/-- The operation sets `isReleased` of slot `i`, which was clear. -/
@[simp] def Op.wins (i : Fin n) : {α : Type} → Op n α → α → Nat
  | _, .session j op, r => if j = i then op.wins r else 0
  | _, _, _ => 0

theorem Op.weights_of_aside {i : Fin n} {α : Type} {op : Op n α} {r : α} (aside : op.aside = true) :
    op.popped i r = 0 ∧ op.returned i = 0 ∧ op.left i = 0 ∧ op.wins i r = 0 := by
  cases op with
  | server op => cases aside
  | session j op =>
      refine ⟨rfl, rfl, rfl, ?_⟩
      cases op with
      | casReleased => cases aside
      | _ => exact ite_self 0
  | _ => exact ⟨rfl, rfl, rfl, rfl⟩

/-- **What the frames have begun.** -/
theorem begun_next (i : Fin n) (f : Frame n) (r : f.act.α) (expected : f.Expected r) :
    ((f.act.next r).map (Frame.unjoined i)).sum + f.act.op.onServer (ServerOp.joins i) =
        f.unjoined i + f.act.op.popped i r ∧
      ((f.act.next r).map (Frame.emptying i)).sum + f.act.op.returned i =
        f.emptying i + f.act.op.left i ∧
      ((f.act.next r).map (Frame.closing i)).sum + f.act.op.onServer (ServerOp.closes i) =
        f.closing i + f.act.op.wins i r ∧
      ((f.act.next r).map (Frame.clearing i)).sum = f.act.op.onServer (ServerOp.closes i) := by
  have goes := f.goes r
  generalize f.act.next r = fs at goes ⊢
  cases goes with
  | poppedStray sock index outside => exact absurd expected (Nat.not_lt.mpr outside)
  | lock id use r j named =>
      clear expected
      revert r
      rw [Frame.act_lock_of_lt use named]
      simp
  | lockStray id use r outside =>
      clear expected
      revert r
      rw [Frame.act_lock_of_le use outside]
      simp
  | disConnectLast j => cases expected
  | setRefResponse p targets => simp [Function.comp_def]
  | _ => simp [share, Fin.ext_iff]

theorem unjoined_add_emptying_le (i : Fin n) (f : Frame n) :
    f.unjoined i + f.emptying i ≤ f.token i := by
  cases f with
  | acceptThread pc => cases pc <;> simp
  | releaseSession pc j => cases pc <;> simp
  | _ => simp

/-- What is closed or cleared is done by a `DisConnect`, which has the slot held. -/
theorem asks_of_closing {i : Fin n} {f : Frame n} (closing : 0 < f.closing i + f.clearing i) :
    f.asks = some i := by
  cases f with
  | disConnect pc j =>
      cases pc with
      | loadSock => exact congrArg some (eq_of_share_pos closing)
      | close sock => exact congrArg some (eq_of_share_pos closing)
      | clearSock => exact congrArg some (eq_of_share_pos (by simpa using closing))
      | _ => cases closing
  | _ => cases closing

/-! ## Who writes -/

/-- The operation changes ID, socket or `isReleased` of slot `i`. -/
def Op.writes (i : Fin n) : {α : Type} → Op n α → Bool
  | _, .session j (.storeID _) => j = i
  | _, .session j (.storeSock _) => j = i
  | _, .session j .casReleased => j = i
  | _, .session j .clearReleased => j = i
  | _, _ => false

theorem SlotStep.writes {i : Fin n} {s s' : Session} {α : Type} {op : Op n α} {r : α}
    (step : SlotStep i s op r s') (none : op.writes i = false) :
    s'.sessionID = s.sessionID ∧ s'.sock = s.sock ∧ s'.isReleased = s.isReleased := by
  cases step with
  | session op => cases op <;> simp_all [Op.writes, SessionOp.exec]
  | _ => exact ⟨rfl, rfl, rfl⟩

theorem Op.writes_of_aside {i : Fin n} {α : Type} {op : Op n α} (aside : op.aside = true) :
    op.writes i = false := by
  cases op with
  | session j op => cases op <;> first | rfl | cases aside
  | _ => rfl

/-- The accept thread before `OnClientJoin` and `ReleaseSession` after
`OnClientLeave` write to a slot, and `DisConnect`. -/
theorem cases_of_writes {i : Fin n} {f : Frame n} (writes : f.act.op.writes i = true) :
    0 < f.unjoined i + f.emptying i ∨ f = .disConnect .cas i ∨ f = .disConnect .clearSock i := by
  by_cases outside : f.outside = true
  · rw [Op.writes_of_aside (Frame.aside_of_outside outside)] at writes
    cases writes
  cases f with
  | acceptThread pc =>
      cases pc with
      | setID j sock id =>
          obtain rfl : j = i := of_decide_eq_true writes
          simp [share]
      | setSock j sock =>
          obtain rfl : j = i := of_decide_eq_true writes
          simp [share]
      | _ => cases writes
  | disConnect pc j =>
      cases pc with
      | cas =>
          obtain rfl : j = i := of_decide_eq_true writes
          exact Or.inr (Or.inl rfl)
      | clearSock =>
          obtain rfl : j = i := of_decide_eq_true writes
          exact Or.inr (Or.inr rfl)
      | _ => cases writes
  | releaseSession pc j =>
      cases pc with
      | initSock index =>
          obtain rfl : j = i := of_decide_eq_true writes
          simp [share]
      | initID index =>
          obtain rfl : j = i := of_decide_eq_true writes
          simp [share]
      | initReleased index =>
          obtain rfl : j = i := of_decide_eq_true writes
          simp [share]
      | _ => cases writes
  | undefined => cases writes
  | _ => exact absurd rfl outside

/-- What a place knows of the session in its slot. -/
def Frame.Named (m : Shared n) : Frame n → Prop
  | .acceptThread (.count i) => ∃ sock, (m.slot i).sock = some sock
  | .acceptThread (.loadID i) => ∃ sock, (m.slot i).sock = some sock
  | .acceptThread (.join i id) => (m.slot i).sessionID = id ∧ ∃ sock, (m.slot i).sock = some sock
  | .releaseSession (.leave id) i => (m.slot i).sessionID = id
  | .disConnect (.close sock) i => (m.slot i).sock = sock
  | _ => True

theorem named_of_plain {m : Shared n} {f : Frame n} (plain : f.plain = true) : f.Named m := by
  cases f with
  | acceptThread pc => cases plain
  | releaseSession pc i => cases plain
  | disConnect pc i =>
      cases pc with
      | cas => trivial
      | _ => cases plain
  | _ => trivial

theorem Frame.Named.of_same {m m' : Shared n} {f : Frame n} (named : f.Named m)
    (same : ∀ i, 0 < f.token i + f.closing i →
      (m'.slot i).sessionID = (m.slot i).sessionID ∧ (m'.slot i).sock = (m.slot i).sock) :
    f.Named m' := by
  have one (i : Fin n) : 0 < share i i := (share_self i).ge
  cases f with
  | acceptThread pc =>
      cases pc <;> first | trivial | simp_all [Frame.Named]
  | releaseSession pc i =>
      cases pc <;> first | trivial | simp_all [Frame.Named]
  | disConnect pc i =>
      cases pc <;> first | trivial | simp_all [Frame.Named]
  | _ => trivial

/-! ## The invariant -/

/-- One `DisConnect` at a time closes the socket of a session, which is then
disconnected, and the places know their session. -/
structure Told (s : Conf (Frame n) (Shared n)) : Prop where
  once : ∀ i, s.tally (Frame.closing i) + s.tally (Frame.clearing i) ≤ 1
  marked : ∀ i, 0 < s.tally (Frame.closing i) + s.tally (Frame.clearing i) →
    (s.mem.slot i).isReleased = true
  named : ∀ stack ∈ s.threads, ∀ f ∈ stack, f.Named s.mem

theorem begun_le_token (s : Conf (Frame n) (Shared n)) (i : Fin n) :
    s.tally (Frame.unjoined i) + s.tally (Frame.emptying i) ≤ s.tally (Frame.token i) := by
  rw [← Conf.tally_add]
  exact Conf.tally_le (unjoined_add_emptying_le i)

/-- A slot that is being closed is held. -/
theorem Accounted.live_of_closing {s : Conf (Frame n) (Shared n)} (inv : Accounted s) {i : Fin n}
    (closing : 0 < s.tally (Frame.closing i) + s.tally (Frame.clearing i)) :
    (s.mem.slot i).live = 1 := by
  rw [← Conf.tally_add] at closing
  obtain ⟨stack, member, f, inside, weighs⟩ := Conf.exists_of_tally_pos closing
  exact Session.live_of_pos (inv.ioCount_pos_of_asks member inside (asks_of_closing weighs))

theorem Accounted.unbegun_of_live {s : Conf (Frame n) (Shared n)} (inv : Accounted s) {i : Fin n}
    (live : (s.mem.slot i).live = 1) :
    ↑i ∉ s.mem.server.indexStack ∧ s.tally (Frame.unjoined i) = 0 ∧
      s.tally (Frame.emptying i) = 0 ∧ s.tally (Frame.token i) = 0 := by
  have once := inv.once i
  have part := begun_le_token s i
  unfold sessions at once
  refine ⟨?_, by omega, by omega, by omega⟩
  intro stacked
  have count := List.count_pos_iff.mpr stacked
  omega

/-- Who begins to close a socket has set `isReleased`. -/
theorem eq_of_wins {i : Fin n} {f : Frame n} {r : f.act.α} (wins : 0 < f.act.op.wins i r) :
    f = .disConnect .cas i := by
  by_cases outside : f.outside = true
  · rw [(Op.weights_of_aside (Frame.aside_of_outside outside)).2.2.2] at wins
    cases wins
  cases f with
  | disConnect pc j =>
      cases pc with
      | cas =>
          have own : j = i := by
            by_contra other
            simp [other] at wins
          rw [own]
      | _ => simp at wins
  | acceptThread pc => cases pc <;> simp at wins
  | releaseSession pc j => cases pc <;> simp at wins
  | undefined => cases wins
  | _ => exact absurd rfl outside

theorem wins_cas (i : Fin n) {r : Bool} :
    (Op.session i SessionOp.casReleased : Op n Bool).wins i r = if r then 0 else 1 := by
  cases r <;> simp

namespace Told

section Step

variable {s : Conf (Frame n) (Shared n)} (told : Told s) (inv : Accounted s) {t : Nat}
  {c : Choice n} {f : Frame n} {rest : List (Frame n)} (here : s.threads[t]? = some (f :: rest))

include inv here in
/-- Who changes a slot that is held is a `DisConnect`. -/
theorem eq_of_writes {i : Fin n} (live : (s.mem.slot i).live = 1)
    (writes : f.act.op.writes i = true) :
    f = .disConnect .cas i ∨ f = .disConnect .clearSock i := by
  rcases cases_of_writes writes with begun | disConnects
  · obtain ⟨-, -, -, none⟩ := inv.unbegun_of_live live
    have part := Conf.le_tally (w := Frame.token i) (List.mem_of_getElem? here) List.mem_cons_self
    have le := unjoined_add_emptying_le i f
    omega
  · exact disConnects

variable {r : f.act.α} {m : Shared n} (done : exec f.act.op c s.mem = some (r, m))
  (expected : f.Expected r)

include here expected in
/-- The `DisConnect`s that close, after a step. -/
theorem closing_step (i : Fin n) :
    (Conf.mk m (s.threads.set t (f.act.next r ++ rest))).tally (Frame.closing i) +
        f.act.op.onServer (ServerOp.closes i) =
      s.tally (Frame.closing i) + f.act.op.wins i r ∧
    (Conf.mk m (s.threads.set t (f.act.next r ++ rest))).tally (Frame.clearing i) + f.clearing i =
      s.tally (Frame.clearing i) + f.act.op.onServer (ServerOp.closes i) := by
  obtain ⟨-, -, closing, clearing⟩ := begun_next i f r expected
  have tally := Machine.tally_step (Frame.closing i) here (f.act.next r) m
  have tally' := Machine.tally_step (Frame.clearing i) here (f.act.next r) m
  omega

include told here done expected

theorem once_step (i : Fin n) :
    (Conf.mk m (s.threads.set t (f.act.next r ++ rest))).tally (Frame.closing i) +
      (Conf.mk m (s.threads.set t (f.act.next r ++ rest))).tally (Frame.clearing i) ≤ 1 := by
  obtain ⟨closing, clearing⟩ := closing_step (m := m) here expected i
  have before := told.once i
  rcases Nat.eq_zero_or_pos (f.act.op.wins i r) with none | wins
  · omega
  · obtain rfl := eq_of_wins wins
    have unmarked : (s.mem.slot i).isReleased = false := by
      cases done
      by_contra marked
      simp [SessionOp.exec, eq_true_of_ne_false marked] at wins
    have quiet : ¬ 0 < s.tally (Frame.closing i) + s.tally (Frame.clearing i) := by
      intro busy
      exact Bool.false_ne_true (unmarked.symm.trans (told.marked i busy))
    have one : (Frame.disConnect .cas i : Frame n).act.op.wins i r ≤ 1 := by
      cases done
      cases h : (s.mem.slot i).isReleased <;> simp [SessionOp.exec, h]
    omega

include inv

theorem marked_step (i : Fin n)
    (closing : 0 < (Conf.mk m (s.threads.set t (f.act.next r ++ rest))).tally (Frame.closing i) +
      (Conf.mk m (s.threads.set t (f.act.next r ++ rest))).tally (Frame.clearing i)) :
    (m.slot i).isReleased = true := by
  obtain ⟨closing', clearing'⟩ := closing_step (m := m) here expected i
  have slot := slot_exec i done
  have cas : f = .disConnect .cas i → (m.slot i).isReleased = true := by
    rintro rfl
    cases done
    rw [Shared.slot_setSlot_self]
    rfl
  rcases Nat.eq_zero_or_pos (s.tally (Frame.closing i) + s.tally (Frame.clearing i)) with
    none | busy
  · have wins : 0 < f.act.op.wins i r := by omega
    exact cas (eq_of_wins wins)
  · have marked := told.marked i busy
    cases writes : f.act.op.writes i with
    | false => rw [(slot.writes writes).2.2, marked]
    | true =>
        rcases eq_of_writes inv here (inv.live_of_closing busy) writes with first | rfl
        · exact cas first
        · cases done
          rw [Shared.slot_setSlot_self]
          exact marked

omit expected in
/-- The session that a place knows stays the same. -/
theorem named_stayed : ∀ stack ∈ s.threads.set t rest, ∀ g ∈ stack, g.Named m := by
  intro stack member g inside
  have before : g.Named s.mem := by
    obtain ⟨stack', old, inside'⟩ := Machine.exists_of_stayed here member inside
    exact told.named stack' old g inside'
  apply before.of_same
  intro i knows
  have slot := slot_exec i done
  cases writes : f.act.op.writes i with
  | false => exact ⟨(slot.writes writes).1, (slot.writes writes).2.1⟩
  | true =>
      have tokens := Machine.add_le_tally (Frame.token i) here member inside
      have closings : f.closing i + f.clearing i + (g.closing i + g.clearing i) ≤
          s.tally (fun f => f.closing i + f.clearing i) :=
        Machine.add_le_tally (fun f => f.closing i + f.clearing i) here member inside
      rw [Conf.tally_add] at closings
      have once := inv.once i
      have one := told.once i
      unfold sessions at once
      have held : f.asks = some i → (s.mem.slot i).live = 1 := fun asks =>
        Session.live_of_pos (inv.ioCount_pos_of_asks (List.mem_of_getElem? here)
          List.mem_cons_self asks)
      rcases cases_of_writes writes with begun | rfl | rfl
      · have le := unjoined_add_emptying_le i f
        have closing : 0 < g.closing i := by omega
        have live := inv.live_of_closing (i := i) (by omega)
        omega
      · cases done
        rw [Shared.slot_setSlot_self]
        exact ⟨rfl, rfl⟩
      · have live := held rfl
        have clears : (Frame.disConnect .clearSock i : Frame n).clearing i = 1 := share_self i
        omega

omit told inv here in
/-- Where a thread goes on, it knows the session. -/
theorem named_next (named : f.Named s.mem) : ∀ g ∈ f.act.next r, g.Named m := by
  cases f with
  | acceptThread pc =>
      cases pc with
      | accept => cases r <;> simp [Frame.Named]
      | full sock => cases r <;> simp [Frame.Named]
      | pop sock =>
          simp only [Frame.act, AcceptThread.act]
          split <;> simp [Frame.Named]
      | setSock i sock =>
          cases done
          rintro g (_ | ⟨_, ⟨⟩⟩)
          exact ⟨sock, congrArg Session.sock (Shared.slot_setSlot_self ..)⟩
      | count i =>
          cases done
          rintro g (_ | ⟨_, ⟨⟩⟩)
          exact named
      | loadID i =>
          cases done
          rintro g (_ | ⟨_, ⟨⟩⟩)
          simp only [Frame.Named, Shared.slot_setSlot_self, SessionOp.exec]
          exact ⟨trivial, named⟩
      | _ => simp [Frame.Named]
  | postRecv pc i who => cases pc <;> cases r <;> simp [Frame.Named]
  | disConnect pc i =>
      cases pc with
      | cas => cases r <;> simp [Frame.Named]
      | loadSock =>
          cases done
          rintro g (_ | ⟨_, ⟨⟩⟩)
          simp only [Frame.Named, Shared.slot_setSlot_self, SessionOp.exec]
      | check => cases r <;> simp [Frame.Named]
      | _ => simp [Frame.Named]
  | releaseSession pc i =>
      cases pc with
      | loadID =>
          cases done
          rintro g (_ | ⟨_, ⟨⟩⟩)
          simp only [Frame.Named, Shared.slot_setSlot_self, SessionOp.exec]
      | _ => first | simp [Frame.Named]; done | cases r <;> simp [Frame.Named]
  | sessionLock pc i id use =>
      cases pc with
      | releasedAgain => cases r <;> cases use <;> simp [Frame.Named]
      | _ => cases r <;> simp [Frame.Named]
  | sessionUnLock i => cases r <;> simp [Frame.Named]
  | postSend pc i =>
      cases pc with
      | undo => cases r <;> simp [Frame.Named]
      | _ => exact fun g member => named_of_plain (plain_next _ r rfl g member)
  | workerThread pc =>
      cases pc with
      | idle =>
          obtain ⟨i, isSend, transferred⟩ := r
          cases isSend <;> cases transferred <;> simp [Completion.frames, Frame.Named]
      | _ => cases r <;> simp [Frame.Named]
  | _ => exact fun g member => named_of_plain (plain_next _ r rfl g member)

end Step

theorem step {s s' : Conf (Frame n) (Shared n)} {t : Nat} {c : Choice n} (told : Told s)
    (inv : Accounted s) (guarded : Guarded s t c) (step : (iocp n).step s t c = some s') :
    Told s' := by
  obtain ⟨f, rest, r, m, here, done, rfl⟩ := iocp_step_cases step
  have expected := inv.expected here done guarded
  have named := told.named _ (List.mem_of_getElem? here) f List.mem_cons_self
  refine ⟨told.once_step here done expected, told.marked_step inv here done expected, ?_⟩
  exact Machine.forall_frames_step here (named_next done expected named)
    (told.named_stayed inv here done)

theorem boot (n : Nat) (sessionID : UINT64) (kinds : List ThreadKind) :
    Told (Shared.boot n sessionID kinds) := by
  have none (w : Frame n → Nat) (first : w (.acceptThread .accept) = 0)
      (others : ∀ kind : ThreadKind, w kind.frame = 0) :
      (Shared.boot n sessionID kinds).tally w = 0 := by
    apply Conf.tally_eq_zero
    intro stack member f inside
    rcases Shared.boot_frames n sessionID kinds stack member f inside with rfl | ⟨kind, rfl⟩
    · exact first
    · exact others kind
  have closing (i : Fin n) : (Shared.boot n sessionID kinds).tally (Frame.closing i) = 0 :=
    none _ rfl fun kind => by cases kind <;> rfl
  have clearing (i : Fin n) : (Shared.boot n sessionID kinds).tally (Frame.clearing i) = 0 :=
    none _ rfl fun kind => by cases kind <;> rfl
  refine ⟨?_, ?_, ?_⟩
  · intro i
    rw [closing, clearing]
    exact Nat.zero_le 1
  · intro i busy
    rw [closing, clearing] at busy
    exact absurd busy (Nat.lt_irrefl 0)
  · intro stack member f inside
    rcases Shared.boot_frames n sessionID kinds stack member f inside with rfl | ⟨kind, rfl⟩
    · trivial
    · cases kind <;> trivial

end Told

/-! ## The phase of a slot -/

/-- What is recorded of an operation with its result. -/
def ServerOp.told : {α : Type} → ServerOp α → α → List Event
  | _, .popIndex, index => [.create index]
  | _, .pushIndex slot index, _ => [.push slot index]
  | _, .onClientJoin slot id, _ => [.join slot id]
  | _, .onClientLeave slot id, _ => [.leave slot id]
  | _, .closesocket slot sock, _ => [.close slot sock]
  | _, _, _ => []

def Op.told : {α : Type} → Op n α → α → List Event
  | _, .server op, r => op.told r
  | _, _, _ => []

theorem ServerStep.log {s s' : Server} {α : Type} {op : Op n α} {r : α}
    (step : ServerStep s op r s') : s'.log = op.told r ++ s.log := by
  cases step with
  | away none =>
      cases op with
      | server op => exact absurd rfl none
      | _ => rfl
  | server done =>
      rename_i op
      cases op with
      | popIndex =>
          obtain ⟨indexStack, sessionCount, sessionID, log⟩ := s
          cases indexStack with
          | nil => cases done
          | cons index rest =>
              cases done
              rfl
      | _ =>
          cases done
          rfl

theorem Op.told_cases {α : Type} (op : Op n α) (r : α) : op.told r = [] ∨ ∃ e, op.told r = [e] := by
  cases op with
  | server op =>
      cases op <;> first | exact Or.inl rfl | exact Or.inr ⟨_, rfl⟩
  | _ => exact Or.inl rfl

theorem ServerStep.history {s s' : Server} {α : Type} {op : Op n α} {r : α}
    (step : ServerStep s op r s') (i : Nat) :
    s'.history i = s.history i ++ (op.told r).filter fun e => e.slot = i := by
  unfold Server.history
  rw [step.log, List.filter_append, List.reverse_append]
  congr 1
  rcases op.told_cases r with none | ⟨e, one⟩
  · rw [none]
    rfl
  · rw [one, List.filter_singleton]
    cases decide (e.slot = i) <;> rfl

/-- The slot is in nobody's hands for creating or emptying it. -/
def Working (s : Conf (Frame n) (Shared n)) (i : Fin n) : Prop :=
  ↑i ∉ s.mem.server.indexStack ∧ s.tally (Frame.unjoined i) = 0 ∧ s.tally (Frame.emptying i) = 0

/-- The phase is that of the slot. -/
def Phase.Fits (s : Conf (Frame n) (Shared n)) (i : Fin n) : Phase → Prop
  | .free => ↑i ∈ s.mem.server.indexStack
  | .created => 0 < s.tally (Frame.unjoined i)
  | .joined id sock => Working s i ∧ (s.mem.slot i).sessionID = id ∧
      (s.mem.slot i).sock = some sock ∧
      ((s.mem.slot i).isReleased = true → 0 < s.tally (Frame.closing i))
  | .closed id _ => Working s i ∧ (s.mem.slot i).sessionID = id ∧
      (s.mem.slot i).isReleased = true ∧ s.tally (Frame.closing i) = 0
  | .left _ _ => 0 < s.tally (Frame.emptying i)

/-- The slot goes on to its next phase, which is what is recorded. -/
def Phase.Advances (p : Phase) (i : Fin n) (told : List Event) (s' : Conf (Frame n) (Shared n)) :
    Prop :=
  ∃ e p', told = [e] ∧ Next i p e p' ∧ p'.Fits s' i

/-- What an operation records of slot `i`. -/
def Op.toldOf (i : Nat) {α : Type} (op : Op n α) (r : α) : List Event :=
  (op.told r).filter fun e => e.slot = i

theorem weights_of_toldOf {i : Nat} {α : Type} {op : Op n α} {r : α}
    (nothing : op.toldOf i r = []) :
    op.popped i r = 0 ∧ op.onServer (ServerOp.joins i) = 0 ∧ op.onServer (ServerOp.closes i) = 0 ∧
      op.left i = 0 ∧ op.returned i = 0 := by
  cases op with
  | server op =>
      cases op <;> simp_all [Op.toldOf, Op.told, ServerOp.told, Event.slot, share]
  | _ => simp

theorem Op.toldOf_of_aside {i : Nat} {α : Type} {op : Op n α} {r : α} (aside : op.aside = true) :
    op.toldOf i r = [] := by
  cases op with
  | server op => cases aside
  | _ => rfl

/-- The places that something is recorded at. -/
theorem cases_of_toldOf {i : Fin n} {f : Frame n} {r : f.act.α} (told : f.act.op.toldOf i r ≠ []) :
    (∃ sock, f = .acceptThread (.pop sock)) ∨ (∃ id, f = .acceptThread (.join i id)) ∨
      (∃ sock, f = .disConnect (.close sock) i) ∨ (∃ id, f = .releaseSession (.leave id) i) ∨
      ∃ index, f = .releaseSession (.push index) i := by
  by_cases outside : f.outside = true
  · exact absurd (Op.toldOf_of_aside (Frame.aside_of_outside outside)) told
  cases f with
  | acceptThread pc =>
      cases pc with
      | pop sock => exact Or.inl ⟨sock, rfl⟩
      | join j id =>
          have own : j = i := by
            by_contra other
            simp [Op.toldOf, Op.told, ServerOp.told, Event.slot, Fin.ext_iff.not.mp other] at told
          exact Or.inr (Or.inl ⟨id, by rw [own]⟩)
      | _ => exact absurd rfl told
  | disConnect pc j =>
      cases pc with
      | close sock =>
          have own : j = i := by
            by_contra other
            simp [Op.toldOf, Op.told, ServerOp.told, Event.slot, Fin.ext_iff.not.mp other] at told
          exact Or.inr (Or.inr (Or.inl ⟨sock, by rw [own]⟩))
      | _ => exact absurd rfl told
  | releaseSession pc j =>
      cases pc with
      | leave id =>
          have own : j = i := by
            by_contra other
            simp [Op.toldOf, Op.told, ServerOp.told, Event.slot, Fin.ext_iff.not.mp other] at told
          exact Or.inr (Or.inr (Or.inr (Or.inl ⟨id, by rw [own]⟩)))
      | push index =>
          have own : j = i := by
            by_contra other
            simp [Op.toldOf, Op.told, ServerOp.told, Event.slot, Fin.ext_iff.not.mp other] at told
          exact Or.inr (Or.inr (Or.inr (Or.inr ⟨index, by rw [own]⟩)))
      | _ => exact absurd rfl told
  | undefined => exact absurd rfl told
  | _ => exact absurd rfl outside

section Step

variable {s : Conf (Frame n) (Shared n)} (told : Told s) (inv : Accounted s) {t : Nat}
  {c : Choice n} {f : Frame n} {rest : List (Frame n)} (here : s.threads[t]? = some (f :: rest))
  {i : Fin n} {p : Phase} (fits : p.Fits s i)

include here in
/-- Who has the slot in hand otherwise leaves it to nobody to create or empty. -/
theorem begun_add_token_le : s.tally (Frame.unjoined i) + s.tally (Frame.emptying i) + f.token i ≤
    s.tally (Frame.token i) + f.unjoined i + f.emptying i := by
  have token := Machine.tally_step (Frame.token i) here [] s.mem
  have unjoined := Machine.tally_step (Frame.unjoined i) here [] s.mem
  have emptying := Machine.tally_step (Frame.emptying i) here [] s.mem
  have others := begun_le_token ⟨s.mem, s.threads.set t ([] ++ rest)⟩ i
  rw [List.map_nil, List.sum_nil] at token unjoined emptying
  omega

include fits inv in
/-- A thread that has the slot in hand, and neither creates nor empties it,
finds its session closed. -/
theorem Phase.Fits.closed_of_token (token : f.token i = 1) (unjoined : f.unjoined i = 0)
    (emptying : f.emptying i = 0) (released : (s.mem.slot i).isReleased = true)
    (here : s.threads[t]? = some (f :: rest)) : ∃ id sock, p = .closed id sock := by
  have once := inv.once i
  have part := Conf.le_tally (w := Frame.token i) (List.mem_of_getElem? here) List.mem_cons_self
  have others := begun_add_token_le here (i := i)
  unfold sessions at once
  cases p with
  | free =>
      have count := List.count_pos_iff.mpr fits
      omega
  | created =>
      have begun : 0 < s.tally (Frame.unjoined i) := fits
      omega
  | joined id sock =>
      have closing := fits.2.2.2 released
      have live := inv.live_of_closing (i := i) (by omega)
      omega
  | closed id sock => exact ⟨id, sock, rfl⟩
  | left id sock =>
      have begun : 0 < s.tally (Frame.emptying i) := fits
      omega

variable {r : f.act.α} {m : Shared n} (done : exec f.act.op c s.mem = some (r, m))
  (expected : f.Expected r)
include inv here done expected

/-- The accept thread and `ReleaseSession`, after a step. -/
theorem begun_step (i : Fin n) :
    (Conf.mk m (s.threads.set t (f.act.next r ++ rest))).tally (Frame.unjoined i) +
        f.act.op.onServer (ServerOp.joins i) =
      s.tally (Frame.unjoined i) + f.act.op.popped i r ∧
    (Conf.mk m (s.threads.set t (f.act.next r ++ rest))).tally (Frame.emptying i) +
        f.act.op.returned i = s.tally (Frame.emptying i) + f.act.op.left i ∧
    m.server.indexStack.count ↑i + f.act.op.popped i r =
      s.mem.server.indexStack.count ↑i + f.act.op.returned i := by
  obtain ⟨unjoined, emptying, -, -⟩ := begun_next i f r expected
  have tally := Machine.tally_step (Frame.unjoined i) here (f.act.next r) m
  have tally' := Machine.tally_step (Frame.emptying i) here (f.act.next r) m
  obtain ⟨stack, -⟩ := (server_exec done).account (i := i)
  have pushed := pushedIndex_of_sound (inv.sound_top here) i
  omega

omit inv done expected in
/-- While nobody creates or empties a slot only `DisConnect` writes to it. -/
theorem Working.writer (working : Working s i) (writes : f.act.op.writes i = true) :
    f = .disConnect .cas i ∨ f = .disConnect .clearSock i := by
  rcases cases_of_writes writes with begun | disConnects
  · have part := Conf.le_tally (w := Frame.unjoined i) (List.mem_of_getElem? here)
      List.mem_cons_self
    have part' := Conf.le_tally (w := Frame.emptying i) (List.mem_of_getElem? here)
      List.mem_cons_self
    have unjoined := working.2.1
    have emptying := working.2.2
    omega
  · exact disConnects

section Stays

variable (popped : f.act.op.popped i r = 0) (joins : f.act.op.onServer (ServerOp.joins i) = 0)
  (closes : f.act.op.onServer (ServerOp.closes i) = 0) (left : f.act.op.left i = 0)
  (returned : f.act.op.returned i = 0)

include popped joins left returned

theorem Working.stays (working : Working s i) :
    Working ⟨m, s.threads.set t (f.act.next r ++ rest)⟩ i := by
  obtain ⟨unjoined, emptying, stack⟩ := begun_step inv here done expected i
  obtain ⟨free, unjoined', emptying'⟩ := working
  refine ⟨?_, by omega, by omega⟩
  intro stacked
  have count := List.count_pos_iff.mpr stacked
  have none := List.count_eq_zero.mpr free
  dsimp only at count
  omega

include told closes

/-- A session that is marked released is being closed, also where it is marked
just now. -/
theorem Phase.Fits.stays_joined {id : UINT64} {sock : Nat}
    (fits : (Phase.joined id sock).Fits s i) :
    (Phase.joined id sock).Fits ⟨m, s.threads.set t (f.act.next r ++ rest)⟩ i := by
  obtain ⟨closing, -⟩ := Told.closing_step (m := m) here expected i
  obtain ⟨working, bears, opened, released⟩ := fits
  refine ⟨working.stays inv here done expected popped joins left returned, ?_⟩
  cases writes : f.act.op.writes i with
  | false =>
      obtain ⟨same, same', same''⟩ := (slot_exec i done).writes writes
      dsimp only
      rw [same, same', same'']
      refine ⟨bears, opened, ?_⟩
      intro marked
      have before := released marked
      omega
  | true =>
      rcases working.writer here writes with rfl | rfl
      · have after : m.slot i = { s.mem.slot i with isReleased := true } := by
          cases done
          exact Shared.slot_setSlot_self ..
        have result : r = (s.mem.slot i).isReleased := by
          cases done
          rfl
        dsimp only
        rw [after]
        refine ⟨bears, opened, ?_⟩
        intro _
        cases marked : (s.mem.slot i).isReleased with
        | true =>
            have before := released marked
            omega
        | false =>
            have wins : (Frame.disConnect .cas i : Frame n).act.op.wins i r = 1 := by
              rw [result, marked]
              exact wins_cas i
            omega
      · -- who clears the socket has won the flag, and is not closing any more
        have part := Conf.le_tally (w := Frame.clearing i) (List.mem_of_getElem? here)
          List.mem_cons_self
        have clears : (Frame.disConnect .clearSock i : Frame n).clearing i = 1 := share_self i
        have once := told.once i
        have before := released (told.marked i (by omega))
        omega

omit told in
/-- Nobody closes a closed session again. -/
theorem Phase.Fits.stays_closed {id : UINT64} {sock : Nat}
    (fits : (Phase.closed id sock).Fits s i) :
    (Phase.closed id sock).Fits ⟨m, s.threads.set t (f.act.next r ++ rest)⟩ i := by
  obtain ⟨closing, -⟩ := Told.closing_step (m := m) here expected i
  obtain ⟨working, bears, released, shut⟩ := fits
  have wins : f.act.op.wins i r = 0 := by
    by_contra wins
    obtain rfl := eq_of_wins (Nat.pos_of_ne_zero wins)
    cases done
    simp [SessionOp.exec, released] at wins
  refine ⟨working.stays inv here done expected popped joins left returned, ?_⟩
  have kept : (m.slot i).sessionID = (s.mem.slot i).sessionID ∧
      (m.slot i).isReleased = true := by
    cases writes : f.act.op.writes i with
    | false =>
        obtain ⟨same, -, same'⟩ := (slot_exec i done).writes writes
        exact ⟨same, same'.trans released⟩
    | true =>
        rcases working.writer here writes with rfl | rfl
        · cases done
          rw [Shared.slot_setSlot_self]
          exact ⟨rfl, rfl⟩
        · cases done
          rw [Shared.slot_setSlot_self]
          exact ⟨rfl, released⟩
  exact ⟨kept.1.trans bears, kept.2, by omega⟩

include fits

/-- Where nothing is recorded of a slot its phase stays. -/
theorem Phase.Fits.stays : p.Fits ⟨m, s.threads.set t (f.act.next r ++ rest)⟩ i := by
  obtain ⟨unjoined, emptying, stack⟩ := begun_step inv here done expected i
  cases p with
  | free =>
      have count := List.count_pos_iff.mpr fits
      apply List.count_pos_iff.mp
      dsimp only
      omega
  | created =>
      have begun : 0 < s.tally (Frame.unjoined i) := fits
      show 0 < _
      omega
  | joined id sock =>
      exact fits.stays_joined told inv here done expected popped joins closes left returned
  | closed id sock =>
      exact fits.stays_closed inv here done expected popped joins closes left returned
  | left id sock =>
      have begun : 0 < s.tally (Frame.emptying i) := fits
      show 0 < _
      omega

end Stays

include told fits

omit told in
/-- `CreateSession` takes the index. -/
theorem Phase.Fits.create_step {sock : Nat} (place : f = .acceptThread (.pop sock))
    (something : f.act.op.toldOf i r ≠ []) :
    p.Advances i (f.act.op.toldOf i r) ⟨m, s.threads.set t (f.act.next r ++ rest)⟩ := by
  subst place
  have once := inv.once i
  have all := begun_le_token s i
  obtain ⟨unjoined', emptying', stack'⟩ := begun_step inv here done expected i
  unfold sessions at once
  obtain ⟨⟨index, server⟩, popped, same⟩ := Option.map_eq_some_iff.mp done
  cases same
  have own : @Eq Nat r i := by
    by_contra other
    simp [Op.toldOf, Op.told, ServerOp.told, Event.slot, other] at something
  have stacked : ↑i ∈ s.mem.server.indexStack := own ▸ mem_of_popIndex popped
  have one : (Frame.acceptThread (.pop sock) : Frame n).act.op.popped i r = 1 :=
    (congrArg (share · i.val) own).trans (share_self i.val)
  have joins : (Frame.acceptThread (.pop sock) : Frame n).act.op.onServer (ServerOp.joins i) = 0 :=
    rfl
  have count := List.count_pos_iff.mpr stacked
  cases p with
  | free =>
      refine ⟨.create i, .created, ?_, .create, ?_⟩
      · simp [Op.toldOf, Op.told, ServerOp.told, Event.slot, own]
      · show 0 < _
        omega
  | created =>
      have begun : 0 < s.tally (Frame.unjoined i) := fits
      omega
  | joined id sock => exact absurd stacked fits.1.1
  | closed id sock => exact absurd stacked fits.1.1
  | left id sock =>
      have begun : 0 < s.tally (Frame.emptying i) := fits
      omega

/-- `OnClientJoin`. -/
theorem Phase.Fits.join_step {id : UINT64} (place : f = .acceptThread (.join i id)) :
    p.Advances i (f.act.op.toldOf i r) ⟨m, s.threads.set t (f.act.next r ++ rest)⟩ := by
  subst place
  have once := inv.once i
  have all := begun_le_token s i
  have member := List.mem_of_getElem? here
  have sound := inv.sound_top here
  have named := told.named _ member _ List.mem_cons_self
  obtain ⟨unjoined', emptying', stack'⟩ := begun_step inv here done expected i
  unfold sessions at once
  have mine : (Frame.acceptThread (.join i id) : Frame n).token i = 1 := share_self i
  have begins : (Frame.acceptThread (.join i id) : Frame n).unjoined i = 1 := share_self i
  have joins : (Frame.acceptThread (.join i id) : Frame n).act.op.onServer (ServerOp.joins i) = 1 :=
    share_self i.val
  have rest' : (Frame.acceptThread (.join i id) : Frame n).act.op.popped i r = 0 ∧
    (Frame.acceptThread (.join i id) : Frame n).act.op.returned i = 0 ∧
    (Frame.acceptThread (.join i id) : Frame n).act.op.left i = 0 := ⟨rfl, rfl, rfl⟩
  have part := Conf.le_tally (w := Frame.unjoined i) member List.mem_cons_self
  obtain ⟨bears, sock, opened⟩ := named
  cases p with
  | created =>
      refine ⟨.join i id, .joined id sock, ?_, .join id sock, ?_⟩
      · simp [Op.toldOf, Op.told, ServerOp.told, Event.slot]
      · have count : m.server.indexStack.count ↑i = 0 := by omega
        have same : m.slot = s.mem.slot := by
          cases done
          rfl
        refine ⟨⟨List.count_eq_zero.mp count, by omega, by omega⟩, ?_⟩
        dsimp only
        rw [same]
        refine ⟨bears, opened, ?_⟩
        intro released
        exact absurd (sound.1.symm.trans released) Bool.false_ne_true
  | free =>
      have count := List.count_pos_iff.mpr fits
      omega
  | joined id sock =>
      have none := fits.1.2.1
      omega
  | closed id sock =>
      have none := fits.1.2.1
      omega
  | left id sock =>
      have begun : 0 < s.tally (Frame.emptying i) := fits
      omega

/-- `closesocket`. -/
theorem Phase.Fits.close_step {sock : Option Nat} (place : f = .disConnect (.close sock) i) :
    p.Advances i (f.act.op.toldOf i r) ⟨m, s.threads.set t (f.act.next r ++ rest)⟩ := by
  subst place
  have member := List.mem_of_getElem? here
  have named := told.named _ member _ List.mem_cons_self
  obtain ⟨unjoined', emptying', stack'⟩ := begun_step inv here done expected i
  have closes : (Frame.disConnect (.close sock) i : Frame n).closing i = 1 := share_self i
  have part := Conf.le_tally (w := Frame.closing i) member List.mem_cons_self
  have live := inv.live_of_closing (i := i) (by omega)
  have marked := told.marked i (by omega)
  have one := told.once i
  obtain ⟨unstacked, unjoined, emptying, -⟩ := inv.unbegun_of_live live
  obtain ⟨closing', -⟩ := Told.closing_step (m := m) here expected i
  cases p with
  | joined id sock' =>
      obtain ⟨working, bears, opened, -⟩ := fits
      obtain rfl : sock = some sock' := named.symm.trans opened
      have shuts : (Frame.disConnect (.close (some sock')) i : Frame n).act.op.onServer
          (ServerOp.closes i) = 1 := share_self i.val
      have rest' : (Frame.disConnect (.close (some sock')) i : Frame n).act.op.popped i r = 0 ∧
        (Frame.disConnect (.close (some sock')) i : Frame n).act.op.returned i = 0 ∧
        (Frame.disConnect (.close (some sock')) i : Frame n).act.op.left i = 0 ∧
        (Frame.disConnect (.close (some sock')) i : Frame n).act.op.wins i r = 0 ∧
        (Frame.disConnect (.close (some sock')) i : Frame n).act.op.onServer
          (ServerOp.joins i) = 0 := ⟨rfl, rfl, rfl, rfl, rfl⟩
      refine ⟨.close i (some sock'), .closed id sock', ?_, .close id sock', ?_⟩
      · simp [Op.toldOf, Op.told, ServerOp.told, Event.slot]
      · have count : m.server.indexStack.count ↑i = 0 := by
          have before := List.count_eq_zero.mpr unstacked
          omega
        have same : m.slot = s.mem.slot := by
          cases done
          rfl
        refine ⟨⟨List.count_eq_zero.mp count, by omega, by omega⟩, ?_⟩
        dsimp only
        rw [same]
        exact ⟨bears, marked, by omega⟩
  | free => exact absurd fits unstacked
  | created =>
      have begun : 0 < s.tally (Frame.unjoined i) := fits
      omega
  | closed id sock' =>
      have shut := fits.2.2.2
      omega
  | left id sock' =>
      have begun : 0 < s.tally (Frame.emptying i) := fits
      omega

/-- `OnClientLeave`. -/
theorem Phase.Fits.leave_step {id : UINT64} (place : f = .releaseSession (.leave id) i) :
    p.Advances i (f.act.op.toldOf i r) ⟨m, s.threads.set t (f.act.next r ++ rest)⟩ := by
  subst place
  have member := List.mem_of_getElem? here
  have sound := inv.sound_top here
  have named := told.named _ member _ List.mem_cons_self
  obtain ⟨unjoined', emptying', stack'⟩ := begun_step inv here done expected i
  have mine : (Frame.releaseSession (.leave id) i : Frame n).token i = 1 := share_self i
  obtain ⟨id', sock, rfl⟩ := fits.closed_of_token inv mine rfl rfl sound.1 here
  obtain rfl : id = id' := named.symm.trans fits.2.1
  refine ⟨.leave i id, .left id sock, ?_, .leave id sock, ?_⟩
  · simp [Op.toldOf, Op.told, ServerOp.told, Event.slot]
  · have leaves : (Frame.releaseSession (.leave id) i : Frame n).act.op.left i = 1 :=
      share_self i.val
    have returned : (Frame.releaseSession (.leave id) i : Frame n).act.op.returned i = 0 := rfl
    show 0 < _
    omega

omit told in
/-- `PushIndex`. -/
theorem Phase.Fits.push_step {index : Nat} (place : f = .releaseSession (.push index) i) :
    p.Advances i (f.act.op.toldOf i r) ⟨m, s.threads.set t (f.act.next r ++ rest)⟩ := by
  subst place
  have once := inv.once i
  have all := begun_le_token s i
  have member := List.mem_of_getElem? here
  have sound := inv.sound_top here
  obtain ⟨unjoined', emptying', stack'⟩ := begun_step inv here done expected i
  unfold sessions at once
  have mine : (Frame.releaseSession (.push index) i : Frame n).token i = 1 := share_self i
  have begins : (Frame.releaseSession (.push index) i : Frame n).emptying i = 1 := share_self i
  have part := Conf.le_tally (w := Frame.emptying i) member List.mem_cons_self
  obtain rfl : index = i := sound.2
  cases p with
  | left id sock =>
      refine ⟨.push i i, .free, ?_, .push id sock, ?_⟩
      · simp [Op.toldOf, Op.told, ServerOp.told, Event.slot]
      · have returned : (Frame.releaseSession (.push i) i : Frame n).act.op.returned i = 1 :=
          share_self i.val
        have popped : (Frame.releaseSession (.push i) i : Frame n).act.op.popped i r = 0 := rfl
        apply List.count_pos_iff.mp
        dsimp only
        omega
  | free =>
      have count := List.count_pos_iff.mpr fits
      omega
  | created =>
      have begun : 0 < s.tally (Frame.unjoined i) := fits
      omega
  | joined id sock =>
      have none := fits.1.2.2
      omega
  | closed id sock =>
      have none := fits.1.2.2
      omega

/-- **A step of the server is no step of a slot's life, or the next one.** -/
theorem Phase.Fits.step :
    (p.Fits ⟨m, s.threads.set t (f.act.next r ++ rest)⟩ i ∧ f.act.op.toldOf i r = []) ∨
      p.Advances i (f.act.op.toldOf i r) ⟨m, s.threads.set t (f.act.next r ++ rest)⟩ := by
  by_cases nothing : f.act.op.toldOf i r = []
  · obtain ⟨popped, joins, closes, left, returned⟩ := weights_of_toldOf nothing
    exact Or.inl ⟨fits.stays told inv here done expected popped joins closes left returned, nothing⟩
  · right
    rcases cases_of_toldOf nothing with ⟨sock, pops⟩ | ⟨id, joins⟩ | ⟨sock, closes⟩ | ⟨id, leaves⟩ |
      ⟨index, pushes⟩
    · exact fits.create_step inv here done expected pops nothing
    · exact fits.join_step told inv here done expected joins
    · exact fits.close_step told inv here done expected closes
    · exact fits.leave_step told inv here done expected leaves
    · exact fits.push_step inv here done expected pushes

end Step

/-! ## Runs -/

theorem Told.of_run {sessionID : UINT64} {kinds : List ThreadKind} {s : Conf (Frame n) (Shared n)}
    (run : (iocp n).Steps Guarded (Shared.boot n sessionID kinds) s) : Accounted s ∧ Told s := by
  refine run.invariant (I := fun s => Accounted s ∧ Told s)
    ⟨.boot n sessionID kinds, .boot n sessionID kinds⟩ ?_
  rintro s t c s' ⟨inv, told⟩ guarded step
  exact ⟨inv.step guarded step, told.step inv guarded step⟩

/-- **The life of a slot.** What a run records of a slot is a way from its phase
before to its phase after. -/
theorem Phase.Fits.of_steps {s s' : Conf (Frame n) (Shared n)} {i : Fin n} {p : Phase}
    (fits : p.Fits s i) (inv : Accounted s) (told : Told s) (run : (iocp n).Steps Guarded s s') :
    ∃ trace p', Path i p trace p' ∧
      s'.mem.server.history i = s.mem.server.history i ++ trace ∧ p'.Fits s' i := by
  have all : (Accounted s' ∧ Told s') ∧ ∃ trace p', Path i p trace p' ∧
      s'.mem.server.history i = s.mem.server.history i ++ trace ∧ p'.Fits s' i := by
    refine run.invariant (I := fun s' => (Accounted s' ∧ Told s') ∧ ∃ trace p', Path i p trace p' ∧
      s'.mem.server.history i = s.mem.server.history i ++ trace ∧ p'.Fits s' i) ?_ ?_
    · exact ⟨⟨inv, told⟩, [], p, .refl, (List.append_nil _).symm, fits⟩
    · rintro s₁ t c s₂ ⟨⟨inv₁, told₁⟩, trace, q, path, history, fits₁⟩ guarded step
      refine ⟨⟨inv₁.step guarded step, told₁.step inv₁ guarded step⟩, ?_⟩
      obtain ⟨f, rest, r, m, here, done, rfl⟩ := iocp_step_cases step
      have recorded := (server_exec done).history i
      rcases fits₁.step told₁ inv₁ here done (inv₁.expected here done guarded) with
        ⟨stays, nothing⟩ | ⟨e, q', one, next, fits₂⟩
      · refine ⟨trace, q, path, ?_, stays⟩
        rw [recorded, history, List.append_assoc]
        exact congrArg (_ ++ ·) ((congrArg (trace ++ ·) nothing).trans (List.append_nil trace))
      · refine ⟨trace ++ [e], q', path.tail next, ?_, fits₂⟩
        rw [recorded, history, List.append_assoc]
        exact congrArg (_ ++ ·) (congrArg (trace ++ ·) one)
  exact all.2

/-- A slot that is held has a session that has joined. -/
theorem Phase.Fits.within {s : Conf (Frame n) (Shared n)} {i : Fin n} {p : Phase}
    (fits : p.Fits s i) (inv : Accounted s) (live : (s.mem.slot i).live = 1) :
    ∃ sock, (p = .joined (s.mem.slot i).sessionID sock ∧ (s.mem.slot i).sock = some sock) ∨
      p = .closed (s.mem.slot i).sessionID sock := by
  obtain ⟨unstacked, unjoined, emptying, -⟩ := inv.unbegun_of_live live
  cases p with
  | free => exact absurd fits unstacked
  | created =>
      have begun : 0 < s.tally (Frame.unjoined i) := fits
      omega
  | joined id sock =>
      obtain ⟨-, rfl, opened, -⟩ := fits
      exact ⟨sock, Or.inl ⟨rfl, opened⟩⟩
  | closed id sock =>
      obtain ⟨-, rfl, -⟩ := fits
      exact ⟨sock, Or.inr rfl⟩
  | left id sock =>
      have begun : 0 < s.tally (Frame.emptying i) := fits
      omega

end ChattingServer
