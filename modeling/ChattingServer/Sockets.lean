import ChattingServer.SlotLife

/-!
# No socket is lost or closed twice

A socket that `accept` returns is refused, or carried to a slot by the accept
thread; `DisConnect` closes the one that is in the slot.  `Sockets` records what
was accepted, refused and given to slots.  A slot has a socket from the store of
`CreateSession` to that of `DisConnect` (`Socketed`), so every socket that was
given to it is closed once, or is still the one it has (`sockets_conserved`).
-/

namespace ChattingServer

variable {n : Nat}

/-! ## Places -/

/-- The slot has been given a socket, and the first receive does not hold it
yet. -/
@[simp] def Frame.socketed (i : Fin n) : Frame n → Nat
  | .acceptThread (.count j) => share j i
  | .acceptThread (.loadID j) => share j i
  | .acceptThread (.join j _) => share j i
  | .postRecv .check j .accept => share j i
  | .postRecv .inc j .accept => share j i
  | _ => 0

@[simp] def SessionOp.sets : {α : Type} → SessionOp α → Nat
  | _, .storeSock (some _) => 1
  | _, _ => 0

/-- The operation gives slot `i` a socket. -/
@[simp] def Op.sets (i : Fin n) : {α : Type} → Op n α → Nat
  | _, .session j op => if j = i then op.sets else 0
  | _, _ => 0

/-- A slot without a socket gets one by nothing else. -/
theorem SlotStep.unset {i : Fin n} {s s' : Session} {α : Type} {op : Op n α} {r : α}
    (step : SlotStep i s op r s') (sets : op.sets i = 0) (empty : s.sock = none) :
    s'.sock = none := by
  cases step with
  | session op =>
      cases op with
      | storeSock sock =>
          cases sock with
          | none => rfl
          | some x => simp at sets
      | _ => exact empty
  | _ => exact empty

theorem socketed_le_token (i : Fin n) (f : Frame n) :
    f.socketed i + f.emptying i ≤ f.token i := by
  cases f with
  | acceptThread pc => cases pc <;> simp
  | postRecv pc j who => cases pc <;> cases who <;> simp
  | releaseSession pc j => cases pc <;> simp
  | _ => simp

/-- Who has given a slot its socket goes on to hold it. -/
theorem socketed_next (i : Fin n) (f : Frame n) (r : f.act.α) (expected : f.Expected r) :
    ((f.act.next r).map (Frame.socketed i)).sum + f.starts i =
      f.socketed i + f.act.op.sets i := by
  have goes := f.goes r
  generalize f.act.next r = fs at goes ⊢
  cases goes with
  | poppedStray sock index outside => exact absurd expected (Nat.not_lt.mpr outside)
  | recvReleased j who =>
      cases who with
      | accept => cases expected
      | worker => simp
  | recvLive j who | recvInc j who => cases who <;> simp
  | lock id use r j named =>
      clear expected
      revert r
      rw [Frame.act_lock_of_lt use named]
      simp
  | lockStray id use r outside =>
      clear expected
      revert r
      rw [Frame.act_lock_of_le use outside]
      simp
  | setRefResponse p targets => simp [Function.comp_def]
  | _ => simp [share]

/-! ## Slots that have a socket -/

/-- A slot has a socket only while it is on its way to be held, or held and not
yet through with its `DisConnect`. -/
def Socketed (s : Conf (Frame n) (Shared n)) : Prop :=
  ∀ i, (s.mem.slot i).sock ≠ none → 0 < s.tally (Frame.socketed i) ∨
    (s.mem.slot i).live = 1 ∧ ((s.mem.slot i).isReleased = false ∨
      0 < s.tally (Frame.closing i) + s.tally (Frame.clearing i))

section Token

variable {s : Conf (Frame n) (Shared n)} (inv : Accounted s) {t : Nat} {f : Frame n}
  {rest : List (Frame n)} (here : s.threads[t]? = some (f :: rest)) {i : Fin n}
include inv here

/-- Nobody else has the slot in hand. -/
theorem Accounted.tally_of_token {w : Frame n → Nat} (le : ∀ g : Frame n, w g ≤ g.token i)
    (token : 0 < f.token i) : s.tally w = w f := by
  have once := inv.once i
  have others := Machine.tally_step (Frame.token i) here [] s.mem
  have others' := Machine.tally_step w here [] s.mem
  have below := Conf.tally_le (s := ⟨s.mem, s.threads.set t ([] ++ rest)⟩) le
  unfold sessions at once
  rw [List.map_nil, List.sum_nil] at others others'
  omega

/-- A slot that is in hand for anything but its first receive has no socket. -/
theorem Socketed.none_of_token (socketed : Socketed s) (token : 0 < f.token i)
    (unsocketed : f.socketed i = 0) : (s.mem.slot i).sock = none := by
  by_contra has
  obtain ⟨free, -⟩ := inv.free_of_token (List.mem_of_getElem? here) List.mem_cons_self token
  rcases socketed i has with first | ⟨live, -⟩
  · have le (g : Frame n) : g.socketed i ≤ g.token i :=
      (Nat.le_add_right _ _).trans (socketed_le_token i g)
    have all := inv.tally_of_token here le token
    omega
  · have none := Session.live_of_zero free
    omega

end Token

/-- The places that write to a slot, one by one. -/
theorem place_of_writes {i : Fin n} {f : Frame n} (writes : f.act.op.writes i = true) :
    (∃ sock, f = .acceptThread (.setSock i sock)) ∨ f = .disConnect .clearSock i ∨
      (∃ index, f = .releaseSession (.initSock index) i) ∨ f = .disConnect .cas i ∨
      (∃ sock id, f = .acceptThread (.setID i sock id)) ∨
      (∃ index, f = .releaseSession (.initID index) i) ∨
      ∃ index, f = .releaseSession (.initReleased index) i := by
  by_cases outside : f.outside = true
  · rw [Op.writes_of_aside (Frame.aside_of_outside outside)] at writes
    cases writes
  cases f with
  | acceptThread pc =>
      cases pc with
      | setID j sock id =>
          obtain rfl : j = i := of_decide_eq_true writes
          exact Or.inr (Or.inr (Or.inr (Or.inr (Or.inl ⟨sock, id, rfl⟩))))
      | setSock j sock =>
          obtain rfl : j = i := of_decide_eq_true writes
          exact Or.inl ⟨sock, rfl⟩
      | _ => cases writes
  | disConnect pc j =>
      cases pc with
      | cas =>
          obtain rfl : j = i := of_decide_eq_true writes
          exact Or.inr (Or.inr (Or.inr (Or.inl rfl)))
      | clearSock =>
          obtain rfl : j = i := of_decide_eq_true writes
          exact Or.inr (Or.inl rfl)
      | _ => cases writes
  | releaseSession pc j =>
      cases pc with
      | initSock index =>
          obtain rfl : j = i := of_decide_eq_true writes
          exact Or.inr (Or.inr (Or.inl ⟨index, rfl⟩))
      | initID index =>
          obtain rfl : j = i := of_decide_eq_true writes
          exact Or.inr (Or.inr (Or.inr (Or.inr (Or.inr (Or.inl ⟨index, rfl⟩)))))
      | initReleased index =>
          obtain rfl : j = i := of_decide_eq_true writes
          exact Or.inr (Or.inr (Or.inr (Or.inr (Or.inr (Or.inr ⟨index, rfl⟩)))))
      | _ => cases writes
  | undefined => cases writes
  | _ => exact absurd rfl outside

section Step

variable {s : Conf (Frame n) (Shared n)} (socketed : Socketed s) (told : Told s) (inv : Accounted s)
  {t : Nat} {c : Choice n} {f : Frame n} {rest : List (Frame n)}
  (here : s.threads[t]? = some (f :: rest)) {r : f.act.α} {m : Shared n}
  (done : exec f.act.op c s.mem = some (r, m)) (guarded : Guarded s t c)
include inv here done guarded

/-- The `DisConnect`s that close a slot, where nothing is written to it. -/
theorem Told.closing_kept {i : Fin n} (unwritten : f.act.op.writes i = false) :
    (Conf.mk m (s.threads.set t (f.act.next r ++ rest))).tally (Frame.closing i) +
        f.act.op.onServer (ServerOp.closes i) = s.tally (Frame.closing i) ∧
      (Conf.mk m (s.threads.set t (f.act.next r ++ rest))).tally (Frame.clearing i) =
        s.tally (Frame.clearing i) + f.act.op.onServer (ServerOp.closes i) := by
  obtain ⟨closing, clearing⟩ :=
    Told.closing_step (m := m) here (inv.expected here done guarded) i
  have wins : f.act.op.wins i r = 0 := by
    by_contra win
    rw [eq_of_wins (Nat.pos_of_ne_zero win)] at unwritten
    exact of_decide_eq_false unwritten rfl
  have clears : f.clearing i = 0 := by
    by_contra clear
    cases f with
    | disConnect pc j =>
        cases pc with
        | clearSock =>
            exact of_decide_eq_false unwritten (eq_of_share_pos (Nat.pos_of_ne_zero clear))
        | _ => exact clear rfl
    | _ => exact clear rfl
  omega

include socketed

theorem Socketed.kept {i : Fin n} (unwritten : f.act.op.writes i = false)
    (has : (m.slot i).sock ≠ none) :
    0 < (Conf.mk m (s.threads.set t (f.act.next r ++ rest))).tally (Frame.socketed i) ∨
      (m.slot i).live = 1 ∧ ((m.slot i).isReleased = false ∨
        0 < (Conf.mk m (s.threads.set t (f.act.next r ++ rest))).tally (Frame.closing i) +
          (Conf.mk m (s.threads.set t (f.act.next r ++ rest))).tally (Frame.clearing i)) := by
  have expected := inv.expected here done guarded
  obtain ⟨-, sock, released⟩ := (slot_exec i done).writes unwritten
  have live := (slot_exec i done).live (inv.fits here guarded i)
  have frames := socketed_next i f r expected
  have tally := Machine.tally_step (Frame.socketed i) here (f.act.next r) m
  obtain ⟨closing, clearing⟩ := Told.closing_kept inv here done guarded unwritten
  rw [released]
  rw [sock] at has
  have most : (m.slot i).live ≤ 1 := by
    unfold Session.live
    split <;> omega
  rcases socketed i has with first | ⟨held, still⟩
  · rcases Nat.eq_zero_or_pos (f.starts i) with none | starts
    · exact Or.inl (by omega)
    · obtain rfl := eq_of_starts starts
      have fresh := (inv.sound_top here).1
      have zeroed : (Frame.postRecv .inc i .accept : Frame n).act.op.zeroed i r = 0 := by simp
      exact Or.inr ⟨by omega, Or.inl fresh⟩
  · right
    rcases still with opened | busy
    · refine ⟨?_, Or.inl opened⟩
      by_contra last
      have marked := inv.released_of_zeroed here done guarded (i := i) (by omega)
      exact Bool.false_ne_true (opened.symm.trans marked)
    · have inv' : Accounted ⟨m, s.threads.set t (f.act.next r ++ rest)⟩ :=
        inv.step guarded (by
          rw [Machine.step]
          simp only [here]
          exact congrArg (Option.map _) done)
      exact ⟨inv'.live_of_closing (i := i) (by omega), Or.inr (by omega)⟩

/-- What the `CAS` of a `DisConnect` leaves of a slot that has a socket. -/
theorem Socketed.cas_step {i : Fin n} (place : f = .disConnect .cas i)
    (has : (m.slot i).sock ≠ none) :
    (m.slot i).live = 1 ∧ ((m.slot i).isReleased = false ∨
      0 < (Conf.mk m (s.threads.set t (f.act.next r ++ rest))).tally (Frame.closing i) +
        (Conf.mk m (s.threads.set t (f.act.next r ++ rest))).tally (Frame.clearing i)) := by
  have member := List.mem_of_getElem? here
  have held := inv.ioCount_pos_of_asks member List.mem_cons_self (place ▸ rfl) (i := i)
  have before := Session.live_of_pos held
  have live := (slot_exec i done).live (inv.fits here guarded i)
  obtain ⟨closing, clearing⟩ := Told.closing_step (m := m) here (inv.expected here done guarded) i
  subst place
  have quiet : (Frame.disConnect .cas i : Frame n).act.op.zeroed i r = 0 ∧
      (Frame.disConnect .cas i : Frame n).starts i = 0 ∧
      (Frame.disConnect .cas i : Frame n).clearing i = 0 := by simp
  refine ⟨by omega, Or.inr ?_⟩
  have kept : (m.slot i).sock = (s.mem.slot i).sock := by
    cases done
    rw [Shared.slot_setSlot_self]
    rfl
  have wins : (s.mem.slot i).isReleased = false →
      (Frame.disConnect .cas i : Frame n).act.op.wins i r = 1 := by
    intro opened
    cases done
    simp [SessionOp.exec, opened]
  rw [kept] at has
  rcases socketed i has with first | ⟨-, opened | busy⟩
  · have le : s.tally (Frame.socketed i) ≤ s.tally (Frame.token i) :=
      Conf.tally_le fun g => (Nat.le_add_right _ _).trans (socketed_le_token i g)
    have none := (inv.unbegun_of_live before).2.2.2
    omega
  · have won := wins opened
    omega
  · omega

/-- **A slot has a socket only while it is used.** -/
theorem Socketed.step_at : Socketed ⟨m, s.threads.set t (f.act.next r ++ rest)⟩ := by
  intro i has
  cases writes : f.act.op.writes i with
  | false => exact socketed.kept inv here done guarded writes has
  | true =>
      have empties (token : 0 < f.token i) (unsocketed : f.socketed i = 0)
          (sets : f.act.op.sets i = 0) : False :=
        has ((slot_exec i done).unset sets (socketed.none_of_token inv here token unsocketed))
      have own : share i i = 1 := share_self i
      rcases place_of_writes writes with ⟨sock, rfl⟩ | rfl | ⟨index, rfl⟩ | cas | ⟨sock, id, rfl⟩ |
        ⟨index, rfl⟩ | ⟨index, rfl⟩
      · left
        have frames := socketed_next i _ r (inv.expected here done guarded)
        have tally := Machine.tally_step (Frame.socketed i) here
          ((Frame.acceptThread (.setSock i sock) : Frame n).act.next r) m
        have sets : (Frame.acceptThread (.setSock i sock) : Frame n).act.op.sets i = 1 := by simp
        have starts : (Frame.acceptThread (.setSock i sock) : Frame n).starts i = 0 := rfl
        have before : (Frame.acceptThread (.setSock i sock) : Frame n).socketed i = 0 := rfl
        omega
      · cases done
        rw [Shared.slot_setSlot_self] at has
        exact absurd rfl has
      · exact (empties own.ge rfl (ite_self 0)).elim
      · exact Or.inr (socketed.cas_step inv here done guarded cas has)
      · exact (empties own.ge rfl (ite_self 0)).elim
      · exact (empties own.ge rfl (ite_self 0)).elim
      · exact (empties own.ge rfl (ite_self 0)).elim

end Step

theorem Socketed.step {s s' : Conf (Frame n) (Shared n)} {t : Nat} {c : Choice n}
    (socketed : Socketed s) (inv : Accounted s) (guarded : Guarded s t c)
    (step : (iocp n).step s t c = some s') : Socketed s' := by
  obtain ⟨f, rest, r, m, here, done, rfl⟩ := iocp_step_cases step
  exact socketed.step_at inv here done guarded

theorem Socketed.boot (n : Nat) (sessionID : UINT64) (kinds : List ThreadKind) :
    Socketed (Shared.boot n sessionID kinds) :=
  fun _ has => absurd rfl has

/-! ## The record -/

/-- The sockets that `accept` has returned, that were refused because the server
was full, and that were given to slots, newest first. -/
structure Sockets (n : Nat) where
  accepted : List Nat
  refused : List Nat
  given : List (Fin n × Nat)

def Sockets.none : Sockets n where
  accepted := []
  refused := []
  given := []

def Sockets.note (_ : Nat) (f : Frame n) (_ : List (Frame n)) (r : f.act.α) (k : Sockets n) :
    Sockets n :=
  match f, r with
  | .acceptThread .accept, some sock => { k with accepted := sock :: k.accepted }
  | .acceptThread (.full sock), true => { k with refused := sock :: k.refused }
  | .acceptThread (.setSock i sock), _ => { k with given := (i, sock) :: k.given }
  | _, _ => k

/-- The accept thread has the socket in hand. -/
@[simp] def Frame.carries (x : Nat) : Frame n → Nat
  | .acceptThread (.full sock) => share sock x
  | .acceptThread (.pop sock) => share sock x
  | .acceptThread (.nextID _ sock) => share sock x
  | .acceptThread (.setID _ sock _) => share sock x
  | .acceptThread (.setIndex _ sock) => share sock x
  | .acceptThread (.setSock _ sock) => share sock x
  | _ => 0

/-- The frame gives slot `i` the socket. -/
@[simp] def Frame.hands (i : Fin n) (x : Nat) : Frame n → Nat
  | .acceptThread (.setSock j sock) => share (j, sock) (i, x)
  | _ => 0

/-- The socket has been closed in slot `i`. -/
@[simp] def Event.shuts (i x : Nat) : Event → Nat
  | .close slot sock => share (slot, sock) (i, some x)
  | _ => 0

/-- The slot has the socket, and it has not been closed. -/
def openSock (s : Conf (Frame n) (Shared n)) (i : Fin n) (x : Nat) : Nat :=
  if (s.mem.slot i).sock = some x ∧ s.tally (Frame.clearing i) = 0 then 1 else 0

section Open

variable {s s' : Conf (Frame n) (Shared n)} {i : Fin n} {x : Nat}

theorem openSock_of_none (empty : (s.mem.slot i).sock = none) : openSock s i x = 0 := by
  rw [openSock, empty]
  exact if_neg fun both => nomatch both.1

theorem openSock_of_some {y : Nat} (has : (s.mem.slot i).sock = some y)
    (unclosed : s.tally (Frame.clearing i) = 0) : openSock s i x = share y x := by
  rw [openSock, has, unclosed, share]
  simp only [Option.some.injEq, and_true]

theorem openSock_of_clearing (clearing : 0 < s.tally (Frame.clearing i)) : openSock s i x = 0 :=
  if_neg fun both => clearing.ne' both.2

theorem openSock_congr (sock : (s'.mem.slot i).sock = (s.mem.slot i).sock)
    (clearing : s'.tally (Frame.clearing i) = s.tally (Frame.clearing i)) :
    openSock s' i x = openSock s i x := by
  rw [openSock, openSock, sock, clearing]

end Open

theorem eq_of_hands {i : Fin n} {x : Nat} {f : Frame n} (hands : 0 < f.hands i x) :
    ∃ sock, f = .acceptThread (.setSock i sock) := by
  cases f with
  | acceptThread pc =>
      cases pc with
      | setSock j sock =>
          obtain ⟨rfl, -⟩ := Prod.mk.inj (eq_of_share_pos hands)
          exact ⟨sock, rfl⟩
      | _ => cases hands
  | _ => cases hands

theorem carries_of_enters {x : Nat} (f : Frame n) (enters : f.enters = true) :
    f.carries x = 0 := by
  cases f with
  | acceptThread pc => cases enters
  | _ => rfl

/-- **The accept thread loses no socket.** -/
theorem Sockets.carried_next {t : Nat} (x : Nat) (f : Frame n) (rest : List (Frame n))
    (r : f.act.α) (k : Sockets n) (indexed : f.Indexed r) :
    ((f.act.next r).map (Frame.carries x)).sum + (note t f rest r k).refused.count x +
        ((note t f rest r k).given.map Prod.snd).count x + k.accepted.count x =
      f.carries x + k.refused.count x + (k.given.map Prod.snd).count x +
        (note t f rest r k).accepted.count x := by
  by_cases outside : f.outside = true
  · rw [sum_of_enters carries_of_enters (Frame.enters_next outside r),
      carries_of_enters f (Frame.enters_of_outside outside)]
    cases f with
    | acceptThread pc => cases outside
    | _ => rfl
  cases f with
  | acceptThread pc =>
      cases pc with
      | accept =>
          cases r with
          | none => simp [note]
          | some sock =>
              simp only [note, count_cons_share]
              simp
              omega
      | full sock =>
          cases r with
          | false => simp [note]
          | true =>
              simp only [note, count_cons_share]
              simp
              omega
      | pop sock =>
          have inside : @LT.lt Nat _ r n := indexed
          simp [note, inside]
      | setSock i sock =>
          simp only [note, List.map_cons, count_cons_share]
          simp
          omega
      | _ => simp [note]
  | disConnect pc j => cases pc <;> cases r <;> simp [note]
  | releaseSession pc j => cases pc <;> cases r <;> simp [note]
  | undefined => simp [note]
  | _ => exact absurd rfl outside

theorem Sockets.given_note {t : Nat} (i : Fin n) (x : Nat) (f : Frame n) (rest : List (Frame n))
    (r : f.act.α) (k : Sockets n) :
    (note t f rest r k).given.count (i, x) = k.given.count (i, x) + f.hands i x := by
  cases f with
  | acceptThread pc =>
      cases pc with
      | accept => cases r <;> rfl
      | full sock => cases r <;> rfl
      | setSock j sock => simp [note, List.count_cons, share]
      | _ => rfl
  | _ => rfl

/-- What is recorded adds up. -/
theorem ServerStep.happened {s s' : Server} {α : Type} {op : Op n α} {r : α}
    (step : ServerStep s op r s') (w : Event → Nat) :
    s'.happened w = ((op.told r).map w).sum + s.happened w := by
  unfold Server.happened
  rw [step.log, List.map_append, List.sum_append]

/-- Who closes the socket of a slot. -/
theorem eq_of_closes {i : Fin n} {f : Frame n}
    (closes : 0 < f.act.op.onServer (ServerOp.closes i)) :
    ∃ sock, f = .disConnect (.close sock) i := by
  by_cases outside : f.outside = true
  · rw [Op.onServer_of_aside (Frame.aside_of_outside outside)] at closes
    cases closes
  cases f with
  | disConnect pc j =>
      cases pc with
      | close sock =>
          obtain rfl := Fin.ext (eq_of_share_pos (x := j.val) (y := i.val) closes)
          exact ⟨sock, rfl⟩
      | _ => cases closes
  | acceptThread pc => cases pc <;> cases closes
  | releaseSession pc j => cases pc <;> cases closes
  | undefined => cases closes
  | _ => exact absurd rfl outside

/-- A socket is closed in its slot. -/
theorem shuts_le_closes (i x : Nat) {α : Type} (op : Op n α) (r : α) :
    ((op.told r).map (Event.shuts i x)).sum ≤ op.onServer (ServerOp.closes i) := by
  cases op with
  | server op =>
      cases op with
      | closesocket slot sock =>
          simp only [Op.told, ServerOp.told, List.map_cons, List.map_nil, List.sum_cons,
            List.sum_nil, Event.shuts, Op.onServer, ServerOp.closes, share, Prod.mk.injEq]
          split <;> split <;> omega
      | _ => exact Nat.le_refl 0
  | _ => exact Nat.le_refl 0

section Step

variable {s : Conf (Frame n) (Shared n)} (socketed : Socketed s) (told : Told s) (inv : Accounted s)
  {t : Nat} {c : Choice n} {f : Frame n} {rest : List (Frame n)}
  (here : s.threads[t]? = some (f :: rest)) {r : f.act.α} {m : Shared n}
  (done : exec f.act.op c s.mem = some (r, m)) (guarded : Guarded s t c)
include socketed inv here done guarded

/-- The stores of the slot, one by one. -/
theorem openSock_written {i : Fin n} (x : Nat) (writes : f.act.op.writes i = true) :
    f.hands i x + openSock s i x = openSock ⟨m, s.threads.set t (f.act.next r ++ rest)⟩ i x := by
  obtain ⟨-, cleared⟩ := Told.closing_step (m := m) here (inv.expected here done guarded) i
  have member := List.mem_of_getElem? here
  have slot := slot_exec i done
  have own : share i i = 1 := share_self i
  have unset (token : 0 < f.token i) (unsocketed : f.socketed i = 0) (sets : f.act.op.sets i = 0)
      (hands : f.hands i x = 0) :
      f.hands i x + openSock s i x =
        openSock ⟨m, s.threads.set t (f.act.next r ++ rest)⟩ i x := by
    have empty := socketed.none_of_token inv here token unsocketed
    rw [hands, openSock_of_none empty, openSock_of_none (slot.unset sets empty)]
  rcases place_of_writes writes with ⟨sock, rfl⟩ | rfl | ⟨index, rfl⟩ | rfl | ⟨sock, id, rfl⟩ |
    ⟨index, rfl⟩ | ⟨index, rfl⟩
  · have empty := socketed.none_of_token inv here own.ge rfl
    have free := (inv.free_of_token member List.mem_cons_self (i := i) own.ge).1
    have unclosed : s.tally (Frame.clearing i) = 0 := by
      by_contra clearing
      have live := inv.live_of_closing (i := i) (by omega)
      have dead := Session.live_of_zero free
      omega
    have quiet : (Frame.acceptThread (.setSock i sock) : Frame n).act.op.onServer
        (ServerOp.closes i) = 0 ∧ (Frame.acceptThread (.setSock i sock) : Frame n).clearing i = 0 :=
      ⟨rfl, rfl⟩
    have after : (m.slot i).sock = some sock := by
      cases done
      rw [Shared.slot_setSlot_self]
      rfl
    rw [openSock_of_none empty, openSock_of_some after (by omega)]
    simp [share]
  · have clears : (Frame.disConnect .clearSock i : Frame n).clearing i = 1 := own
    have part := Conf.le_tally (w := Frame.clearing i) member List.mem_cons_self
    have after : (m.slot i).sock = none := by
      cases done
      rw [Shared.slot_setSlot_self]
      rfl
    rw [openSock_of_clearing (by omega), openSock_of_none after]
    rfl
  · exact unset own.ge rfl (ite_self 0) rfl
  · have kept : (m.slot i).sock = (s.mem.slot i).sock := by
      cases done
      rw [Shared.slot_setSlot_self]
      rfl
    have quiet : (Frame.disConnect .cas i : Frame n).act.op.onServer (ServerOp.closes i) = 0 ∧
      (Frame.disConnect .cas i : Frame n).clearing i = 0 := ⟨rfl, rfl⟩
    have same : openSock ⟨m, s.threads.set t ((Frame.disConnect .cas i : Frame n).act.next r ++
        rest)⟩ i x = openSock s i x := openSock_congr kept (by omega)
    rw [same]
    exact Nat.zero_add _
  · exact unset own.ge rfl (ite_self 0) rfl
  · exact unset own.ge rfl (ite_self 0) rfl
  · exact unset own.ge rfl (ite_self 0) rfl

include told

/-- **A slot that is given a socket has it until it closes it.** -/
theorem openSock_step (i : Fin n) (x : Nat) :
    f.hands i x + openSock s i x =
      openSock ⟨m, s.threads.set t (f.act.next r ++ rest)⟩ i x +
        ((f.act.op.told r).map (Event.shuts i x)).sum := by
  have le := shuts_le_closes i x f.act.op r
  cases writes : f.act.op.writes i with
  | true =>
      have written := openSock_written socketed inv here done guarded x writes
      have unclosed : f.act.op.onServer (ServerOp.closes i) = 0 := by
        by_contra closes
        obtain ⟨sock, rfl⟩ := eq_of_closes (Nat.pos_of_ne_zero closes)
        cases writes
      omega
  | false =>
      have hands : f.hands i x = 0 := by
        by_contra gives
        obtain ⟨sock, rfl⟩ := eq_of_hands (Nat.pos_of_ne_zero gives)
        exact of_decide_eq_false writes rfl
      obtain ⟨-, sock, -⟩ := (slot_exec i done).writes writes
      obtain ⟨-, clearing⟩ := Told.closing_kept inv here done guarded writes
      rw [hands, Nat.zero_add]
      rcases Nat.eq_zero_or_pos (f.act.op.onServer (ServerOp.closes i)) with unclosed | closes
      · have same : openSock ⟨m, s.threads.set t (f.act.next r ++ rest)⟩ i x = openSock s i x :=
          openSock_congr sock (by omega)
        omega
      · obtain ⟨closed, rfl⟩ := eq_of_closes closes
        have named := told.named _ (List.mem_of_getElem? here) _ List.mem_cons_self
        have part := Conf.le_tally (w := Frame.closing i) (List.mem_of_getElem? here)
          List.mem_cons_self
        have one := told.once i
        have self : (Frame.disConnect (.close closed) i : Frame n).closing i = 1 ∧
          (Frame.disConnect (.close closed) i : Frame n).act.op.onServer (ServerOp.closes i) = 1 :=
          ⟨share_self i, share_self i.val⟩
        have shut : openSock ⟨m, s.threads.set t ((Frame.disConnect (.close closed) i :
            Frame n).act.next r ++ rest)⟩ i x = 0 := openSock_of_clearing (by omega)
        rw [shut, Nat.zero_add]
        cases closed with
        | none =>
            rw [openSock_of_none named]
            simp [Op.told, ServerOp.told, share]
        | some y =>
            rw [openSock_of_some named (by omega)]
            simp [Op.told, ServerOp.told, share]

end Step

/-! ## Runs -/

/-- The sockets of the record are where they should be. -/
structure Sockets.Balanced (s : Conf (Frame n) (Shared n)) (k : Sockets n) : Prop where
  carried : ∀ x, k.accepted.count x =
    k.refused.count x + (k.given.map Prod.snd).count x + s.tally (Frame.carries x)
  shut : ∀ (i : Fin n) (x : Nat),
    k.given.count (i, x) = s.mem.server.happened (Event.shuts i x) + openSock s i x

theorem Sockets.Balanced.boot (n : Nat) (sessionID : UINT64) (kinds : List ThreadKind) :
    Balanced (Shared.boot n sessionID kinds) .none := by
  constructor
  · intro x
    have idle : (Shared.boot n sessionID kinds).tally (Frame.carries x) = 0 := by
      apply Conf.tally_eq_zero
      intro stack member f inside
      rcases Shared.boot_frames n sessionID kinds stack member f inside with rfl | ⟨kind, rfl⟩
      · rfl
      · cases kind <;> rfl
    rw [idle]
    rfl
  · intro i x
    have unopened : openSock (Shared.boot n sessionID kinds) i x = 0 := openSock_of_none rfl
    rw [unopened]
    rfl

theorem Sockets.Balanced.step {s : Conf (Frame n) (Shared n)} {k : Sockets n}
    (balanced : k.Balanced s) (socketed : Socketed s) (told : Told s) (inv : Accounted s) {t : Nat}
    {c : Choice n} {f : Frame n} {rest : List (Frame n)}
    (here : s.threads[t]? = some (f :: rest)) {r : f.act.α} {m : Shared n}
    (done : exec f.act.op c s.mem = some (r, m)) (guarded : Guarded s t c) :
    (note t f rest r k).Balanced ⟨m, s.threads.set t (f.act.next r ++ rest)⟩ := by
  constructor
  · intro x
    have before := balanced.carried x
    have frames := carried_next (t := t) x f rest r k (inv.expected here done guarded).indexed
    have tally := Machine.tally_step (Frame.carries x) here (f.act.next r) m
    omega
  · intro i x
    have before := balanced.shut i x
    have given := given_note (t := t) i x f rest r k
    have recorded := (server_exec done).happened (Event.shuts i x)
    have opened := openSock_step socketed told inv here done guarded i x
    dsimp only
    omega

/-- Nothing but a socket is closed. -/
theorem Phase.Path.not_mem_close {i : Nat} {p q : Phase} {trace : List Event}
    (path : Path i p trace q) : .close i none ∉ trace := by
  induction path with
  | refl => exact List.not_mem_nil
  | tail before next ih =>
      intro member
      rcases List.mem_append.mp member with older | last
      · exact ih older
      · cases List.mem_singleton.mp last
        cases next

/-- **No socket is lost or closed twice**, for runs whose steps are guarded.
Every socket that `accept` has returned was refused, was given to a slot, or is
in the hands of the accept thread.  What was given to a slot has been closed
there once, or is the one it has and is still open.  A slot whose index is in
`indexStack` has no socket, and no slot closes where it has none. -/
theorem sockets_conserved {n : Nat} {sessionID : UINT64} {kinds : List ThreadKind}
    {s : Conf (Frame n) (Shared n)} {k : Sockets n}
    (run : (iocp n).NotedSteps Sockets.note Guarded (Shared.boot n sessionID kinds, .none) (s, k)) :
    (∀ x, k.accepted.count x =
        k.refused.count x + (k.given.map Prod.snd).count x + s.tally (Frame.carries x)) ∧
      (∀ (i : Fin n) (x : Nat),
        k.given.count (i, x) = s.mem.server.happened (Event.shuts i x) + openSock s i x) ∧
      (∀ i : Fin n, ↑i ∈ s.mem.server.indexStack → (s.mem.slot i).sock = none) ∧
      ∀ i : Fin n, .close ↑i none ∉ s.mem.server.log := by
  have all : (Accounted s ∧ Told s) ∧ Socketed s ∧ k.Balanced s := by
    refine run.invariant (I := fun s k => (Accounted s ∧ Told s) ∧ Socketed s ∧ k.Balanced s)
      ⟨⟨.boot n sessionID kinds, .boot n sessionID kinds⟩, .boot n sessionID kinds,
        .boot n sessionID kinds⟩ ?_
    intro p t c q both guarded noted
    obtain ⟨⟨inv, told⟩, socketed, balanced⟩ := both
    have step := Machine.step_of_noted noted
    obtain ⟨f, rest, r, m, here, done, rfl⟩ := Machine.noted_cases noted
    exact ⟨⟨inv.step guarded step, told.step inv guarded step⟩, socketed.step inv guarded step,
      balanced.step socketed told inv here done guarded⟩
  obtain ⟨⟨inv, -⟩, socketed, balanced⟩ := all
  refine ⟨balanced.carried, balanced.shut, ?_, ?_⟩
  · intro i stacked
    by_contra has
    have count := List.count_pos_iff.mpr stacked
    have once := inv.once i
    have le : s.tally (Frame.socketed i) ≤ s.tally (Frame.token i) :=
      Conf.tally_le fun g => (Nat.le_add_right _ _).trans (socketed_le_token i g)
    unfold sessions at once
    rcases socketed i has with first | ⟨live, -⟩
    · omega
    · omega
  · intro i member
    have free : Phase.free.Fits (Shared.boot n sessionID kinds) i := List.mem_range.mpr i.isLt
    obtain ⟨trace, p, path, history, -⟩ := free.of_steps (.boot n sessionID kinds)
      (.boot n sessionID kinds) run.steps
    apply path.not_mem_close
    have start : (Shared.boot n sessionID kinds).mem.server.history i = [] := rfl
    rw [start, List.nil_append] at history
    rw [← history]
    unfold Server.history
    rw [List.mem_reverse, List.mem_filter]
    exact ⟨member, decide_eq_true rfl⟩

/-- The one socket of a session that comes and goes is shut or still open, once in all. -/
theorem sockets_conserved_one :
    ∃ s k, (iocp 1).NotedSteps Sockets.note Guarded (Shared.boot 1 0 [.worker], .none) (s, k) ∧
      k.given = [(0, 1)] ∧ s.mem.server.happened (Event.shuts 0 1) + openSock s 0 1 = 1 := by
  have reached : ((iocp 1).runNoted Sockets.note Guarded (acceptOne ++ closeOne)
      (Shared.boot 1 0 [.worker], .none)).map (fun p => p.2.given) = some [(0, 1)] := by
    decide +kernel
  obtain ⟨⟨s, k⟩, taken, given⟩ := Option.map_eq_some_iff.mp reached
  have run := Machine.NotedSteps.of_run taken
  refine ⟨s, k, run, given, ?_⟩
  have shut := (sockets_conserved run).2.1 0 1
  rw [given] at shut
  exact shut.symm

end ChattingServer
