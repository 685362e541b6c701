import ChattingServer.IOCPServer

/-!
# Who holds a slot

A slot is free, in the hands of the accept thread that fills it, held by its
`ioCount`, or in the hands of the thread that empties it.  `Frame.token` are the
places that have it in hand; `Frame.holds` the places that will still take back
an increment of `ioCount`; `Frame.renews` the places that keep a session alive
that is not disconnected.  `account_next` checks the frames against what their
operations do, given the results that the source relies on (`Expected`), and
`SlotStep` the memory.
-/

namespace ChattingServer

variable {n : Nat}

/-! ## Places -/

/-- The accept thread is filling slot `i`, or a thread is emptying it. -/
@[simp] def Frame.token (i : Fin n) : Frame n → Nat
  | .acceptThread (.nextID j _) => share j i
  | .acceptThread (.setID j _ _) => share j i
  | .acceptThread (.setIndex j _) => share j i
  | .acceptThread (.setSock j _) => share j i
  | .acceptThread (.count j) => share j i
  | .acceptThread (.loadID j) => share j i
  | .acceptThread (.join j _) => share j i
  | .postRecv .check j .accept => share j i
  | .postRecv .inc j .accept => share j i
  | .workerThread (.check j) => share j i
  | .releaseSession .count _ => 0
  | .releaseSession _ j => share j i
  | _ => 0

/-- Of these, the ones that have not called `OnClientLeave`. -/
@[simp] def Frame.unleft (i : Fin n) : Frame n → Nat
  | .acceptThread (.nextID j _) => share j i
  | .acceptThread (.setID j _ _) => share j i
  | .acceptThread (.setIndex j _) => share j i
  | .acceptThread (.setSock j _) => share j i
  | .acceptThread (.count j) => share j i
  | .acceptThread (.loadID j) => share j i
  | .acceptThread (.join j _) => share j i
  | .postRecv .check j .accept => share j i
  | .postRecv .inc j .accept => share j i
  | .workerThread (.check j) => share j i
  | .releaseSession .loadID j => share j i
  | .releaseSession (.leave _) j => share j i
  | _ => 0

/-- The first `PostRecv` of a session is about to hold slot `i` for it. -/
@[simp] def Frame.starts (i : Fin n) : Frame n → Nat
  | .postRecv .inc j .accept => share j i
  | _ => 0

/-- The thread will still take back an increment of `ioCount` of slot `i`. -/
@[simp] def Frame.holds (i : Fin n) : Frame n → Nat
  | .workerThread (.dec j) => share j i
  | .postRecv .issue j _ => share j i
  | .postRecv .undo j _ => share j i
  | .postSend .issue j => share j i
  | .postSend .undo j => share j i
  | .sessionLock _ j _ _ => share j i
  | .sessionUnLock j => share j i
  | _ => 0

/-- The accept thread has popped an index and not yet counted the session. -/
@[simp] def Frame.uncounted : Frame n → Nat
  | .acceptThread (.nextID _ _) => 1
  | .acceptThread (.setID _ _ _) => 1
  | .acceptThread (.setIndex _ _) => 1
  | .acceptThread (.setSock _ _) => 1
  | .acceptThread (.count _) => 1
  | _ => 0

/-- A `ReleaseSession` has pushed its index and not yet counted the session out. -/
@[simp] def Frame.overcounted : Frame n → Nat
  | .releaseSession .count _ => 1
  | _ => 0

/-! ## What operations do to them -/

@[simp] def SessionOp.zeroed : {α : Type} → SessionOp α → α → Nat
  | _, .decIo, true => 1
  | _, .ioIsZero, true => 1
  | _, _, _ => 0

/-- The operation finds that nothing holds slot `i` any more. -/
@[simp] def Op.zeroed (i : Fin n) : {α : Type} → Op n α → α → Nat
  | _, .session j op, r => if j = i then op.zeroed r else 0
  | _, _, _ => 0

@[simp] def SessionOp.grabbed : {α : Type} → SessionOp α → Nat
  | _, .incIo => 1
  | _, _ => 0

/-- The operation makes its thread hold slot `i`. -/
@[simp] def Op.grabbed (i : Fin n) : {α : Type} → Op n α → α → Nat
  | _, .session j op, _ => if j = i then op.grabbed else 0
  | _, .completion, c => share c.slot i
  | _, _, _ => 0

@[simp] def SessionOp.dropped : {α : Type} → SessionOp α → Nat
  | _, .decIo => 1
  | _, _ => 0

/-- The thread does not hold slot `i` any more, or the kernel does instead. -/
@[simp] def Op.dropped (i : Fin n) : {α : Type} → Op n α → α → Nat
  | _, .session j op, _ => if j = i then op.dropped else 0
  | _, .wsaRecv j, true => share j i
  | _, .wsaSend j, true => share j i
  | _, _, _ => 0

@[simp] def ServerOp.popped (i : Nat) : {α : Type} → ServerOp α → α → Nat
  | _, .popIndex, index => share index i
  | _, _, _ => 0

/-- The operation pops index `i`. -/
@[simp] def Op.popped (i : Nat) : {α : Type} → Op n α → α → Nat
  | _, .server op, r => op.popped i r
  | _, _, _ => 0

@[simp] def ServerOp.returned (i : Nat) : {α : Type} → ServerOp α → Nat
  | _, .pushIndex slot _ => share slot i
  | _, _ => 0

/-- The operation is the push of a `ReleaseSession` of slot `i`. -/
@[simp] def Op.returned (i : Nat) : {α : Type} → Op n α → Nat
  | _, .server op => op.returned i
  | _, _ => 0

@[simp] def ServerOp.pushedIndex (i : Nat) : {α : Type} → ServerOp α → Nat
  | _, .pushIndex _ index => share index i
  | _, _ => 0

/-- The operation pushes index `i`. -/
@[simp] def Op.pushedIndex (i : Nat) : {α : Type} → Op n α → Nat
  | _, .server op => op.pushedIndex i
  | _, _ => 0

@[simp] def ServerOp.left (i : Nat) : {α : Type} → ServerOp α → Nat
  | _, .onClientLeave slot _ => share slot i
  | _, _ => 0

/-- The operation is the `OnClientLeave` of a `ReleaseSession` of slot `i`. -/
@[simp] def Op.left (i : Nat) : {α : Type} → Op n α → Nat
  | _, .server op => op.left i
  | _, _ => 0

@[simp] def ServerOp.pops : {α : Type} → ServerOp α → Nat
  | _, .popIndex => 1
  | _, _ => 0

@[simp] def ServerOp.pushes : {α : Type} → ServerOp α → Nat
  | _, .pushIndex _ _ => 1
  | _, _ => 0

@[simp] def ServerOp.counts : {α : Type} → ServerOp α → Nat
  | _, .incSessions => 1
  | _, _ => 0

@[simp] def ServerOp.uncounts : {α : Type} → ServerOp α → Nat
  | _, .decSessions => 1
  | _, _ => 0

/-- A weight of operations on what the server keeps. -/
@[simp] def Op.onServer (w : {α : Type} → ServerOp α → Nat) : {α : Type} → Op n α → Nat
  | _, .server op => w op
  | _, _ => 0

/-! ## The frames -/

/-- The results that the source relies on without saying so. -/
@[simp] def Frame.Expected : (f : Frame n) → f.act.α → Prop
  | .acceptThread (.pop _), index => @LT.lt Nat _ index n
  | .postRecv .check _ .accept, released => released = false
  | .postRecv .issue _ .accept, accepted => accepted = true
  | .workerThread (.check _), released => released = true
  | .disConnect .check _, zero => zero = false
  | .sessionLock .idAgain _ _ _, same => same = true
  | _, _ => True

/-- A popped index names a slot. -/
@[simp] def Frame.Indexed : (f : Frame n) → f.act.α → Prop
  | .acceptThread (.pop _), index => @LT.lt Nat _ index n
  | _, _ => True

theorem Frame.Expected.indexed {f : Frame n} {r : f.act.α} (expected : f.Expected r) :
    f.Indexed r := by
  cases f with
  | acceptThread pc =>
      cases pc with
      | pop sock => exact expected
      | _ => trivial
  | _ => trivial

/-- A thread that never gets there. -/
@[simp] def Frame.Stray : Frame n → Prop
  | .postRecv .undo _ .accept => True
  | .sessionLock .failAgain _ _ _ => True
  | _ => False

theorem Op.onServer_of_aside {α : Type} {op : Op n α} (aside : op.aside = true)
    (w : {α : Type} → ServerOp α → Nat) : op.onServer w = 0 := by
  cases op with
  | server op => cases aside
  | _ => rfl

/-- **What the frames have in hand.** -/
theorem account_next (i : Fin n) (f : Frame n) (r : f.act.α) (expected : f.Expected r)
    (stray : ¬ f.Stray) :
    ((f.act.next r).map (Frame.token i)).sum + f.starts i + f.act.op.returned i =
        f.token i + f.act.op.popped i r + f.act.op.zeroed i r ∧
      ((f.act.next r).map (Frame.unleft i)).sum + f.starts i + f.act.op.left i =
        f.unleft i + f.act.op.popped i r + f.act.op.zeroed i r ∧
      ((f.act.next r).map (Frame.holds i)).sum + f.act.op.dropped i r =
        f.holds i + f.act.op.grabbed i r := by
  have goes := f.goes r
  generalize f.act.next r = fs at goes ⊢
  cases goes with
  | popped sock j => simp [share, Fin.ext_iff]
  | poppedStray sock index outside => exact absurd expected (Nat.not_lt.mpr outside)
  | recvLive j who => cases who <;> simp
  | recvReleased j who =>
      cases who with
      | accept => cases expected
      | worker => simp
  | recvInc j who => cases who <;> simp [share]
  | disConnectLast j => cases expected
  | lock id use r j named =>
      clear expected
      revert r
      rw [Frame.act_lock_of_lt use named]
      simp [share]
  | lockStray id use r outside =>
      clear expected
      revert r
      rw [Frame.act_lock_of_le use outside]
      simp
  | idOtherAgain j id use => cases expected
  | failAgain j id use last => exact absurd trivial stray
  | workerSpares j => cases expected
  | setRefResponse p targets => simp [Function.comp_def]
  | _ => simp [share, Fin.ext_iff]

theorem Op.pushedIndex_of_aside {i : Nat} {α : Type} {op : Op n α} (aside : op.aside = true) :
    op.pushedIndex i = 0 := by
  cases op with
  | server op => cases aside
  | _ => rfl

theorem Op.returned_of_aside {i : Nat} {α : Type} {op : Op n α} (aside : op.aside = true) :
    op.returned i = 0 := by
  cases op with
  | server op => cases aside
  | _ => rfl

theorem uncounted_of_enters (f : Frame n) (enters : f.enters = true) : f.uncounted = 0 := by
  cases f with
  | acceptThread pc => cases enters
  | _ => rfl

theorem overcounted_of_enters (f : Frame n) (enters : f.enters = true) : f.overcounted = 0 := by
  cases f with
  | releaseSession pc j =>
      cases pc with
      | count => cases enters
      | _ => rfl
  | _ => rfl

/-- What the frames have counted in and out. -/
theorem count_next (f : Frame n) (r : f.act.α) (indexed : f.Indexed r) :
    ((f.act.next r).map Frame.uncounted).sum + f.act.op.onServer ServerOp.counts =
        f.uncounted + f.act.op.onServer ServerOp.pops ∧
      ((f.act.next r).map Frame.overcounted).sum + f.act.op.onServer ServerOp.uncounts =
        f.overcounted + f.act.op.onServer ServerOp.pushes := by
  by_cases outside : f.outside = true
  · have here := Frame.enters_of_outside outside
    have enters := Frame.enters_next outside r
    rw [sum_of_enters uncounted_of_enters enters, uncounted_of_enters f here,
      sum_of_enters overcounted_of_enters enters, overcounted_of_enters f here]
    simp only [Op.onServer_of_aside (Frame.aside_of_outside outside), and_self]
  · cases f with
    | acceptThread pc =>
        cases pc with
        | accept => cases r <;> simp
        | full sock => cases r <;> simp
        | pop sock =>
            have inside : @LT.lt Nat _ r n := indexed
            simp [inside]
        | _ => simp
    | disConnect pc j => cases pc <;> cases r <;> simp
    | releaseSession pc j => cases pc <;> cases r <;> simp
    | undefined => simp
    | _ => exact absurd rfl outside

/-! ## The memory -/

/-- Something holds the session. -/
def Session.live (s : Session) : Nat := if s.ioCount = 0 then 0 else 1

theorem Session.live_of_pos {s : Session} (held : 0 < s.ioCount) : s.live = 1 := if_neg held.ne'

theorem Session.live_of_zero {s : Session} (free : s.ioCount = 0) : s.live = 0 := if_pos free

/-- An operation on `ioCount` finds it as its thread takes it to be. -/
def SessionOp.Fits (starts : Nat) (s : Session) : {α : Type} → SessionOp α → Prop
  | _, .incIo => 0 ≤ s.ioCount ∧ starts + s.live = 1
  | _, .decIo => 0 < s.ioCount ∧ starts = 0
  | _, .ioIsZero => 0 < s.ioCount ∧ starts = 0
  | _, .clearIo => s.ioCount = 0 ∧ starts = 0
  | _, _ => starts = 0

def Op.Fits (i : Fin n) (starts : Nat) (s : Session) : {α : Type} → Op n α → Prop
  | _, .session j op => if j = i then op.Fits starts s else starts = 0
  | _, _ => starts = 0

theorem Op.fits_session {i j : Fin n} {s : Session} {starts : Nat} {α : Type} {op : SessionOp α}
    (same : j = i → op.Fits starts s) (other : j ≠ i → starts = 0) :
    (Op.session j op).Fits i starts s := by
  show if j = i then op.Fits starts s else starts = 0
  split
  · exact same ‹_›
  · exact other ‹_›

/-- The operation looks at `ioCount`. -/
def Op.counts : {α : Type} → Op n α → Bool
  | _, .session _ .incIo => true
  | _, .session _ .decIo => true
  | _, .session _ .ioIsZero => true
  | _, .session _ .clearIo => true
  | _, _ => false

theorem Op.fits_of_not_counts {i : Fin n} {s : Session} {α : Type} {op : Op n α}
    (none : op.counts = false) : op.Fits i 0 s := by
  cases op with
  | session j op =>
      refine Op.fits_session (fun _ => ?_) fun _ => rfl
      cases op <;> first | rfl | cases none
  | _ => rfl

theorem SessionOp.live_exec {α : Type} {op : SessionOp α} {s : Session} {starts : Nat}
    (fits : op.Fits starts s) :
    (op.exec s).2.live + op.zeroed (op.exec s).1 = s.live + starts := by
  cases op with
  | incIo =>
      obtain ⟨counted, one⟩ := fits
      have after : ({ s with ioCount := s.ioCount + 1 } : Session).live = 1 :=
        Session.live_of_pos (Int.lt_add_one_of_le counted)
      simp only [exec, zeroed]
      omega
  | decIo =>
      obtain ⟨held, rfl⟩ := fits
      have before := Session.live_of_pos held
      simp only [exec]
      rcases eq_or_ne (s.ioCount - 1) 0 with last | more
      · have after := Session.live_of_zero (s := { s with ioCount := s.ioCount - 1 }) last
        rw [decide_eq_true last, after, before]
        rfl
      · have after : ({ s with ioCount := s.ioCount - 1 } : Session).live = 1 := if_neg more
        rw [decide_eq_false more, after, before]
        rfl
  | ioIsZero =>
      obtain ⟨held, rfl⟩ := fits
      simp only [exec]
      rw [decide_eq_false held.ne']
      rfl
  | clearIo =>
      obtain ⟨free, rfl⟩ := fits
      have before := Session.live_of_zero free
      rw [before]
      rfl
  | _ =>
      obtain rfl : starts = 0 := fits
      rfl

/-- Who holds the session besides running threads. -/
def Session.outside (s : Session) : Int := s.ioCount - s.recvOut - s.sendOut

theorem SessionOp.held_exec {α : Type} {op : SessionOp α} {s : Session} {starts : Nat}
    (fits : op.Fits starts s) :
    (op.exec s).2.outside + op.dropped = s.outside + op.grabbed := by
  cases op with
  | incIo =>
      simp only [exec, Session.outside, dropped, grabbed]
      omega
  | decIo =>
      simp only [exec, Session.outside, dropped, grabbed]
      omega
  | clearIo =>
      have free : s.ioCount = 0 := fits.1
      simp only [exec, Session.outside, dropped, grabbed]
      omega
  | _ => rfl

namespace SlotStep

variable {i : Fin n} {s s' : Session} {α : Type} {op : Op n α} {r : α} {starts : Nat}

theorem live (step : SlotStep i s op r s') (fits : op.Fits i starts s) :
    s'.live + op.zeroed i r = s.live + starts := by
  cases step with
  | away away =>
      cases op with
      | session j op =>
          have other : j ≠ i := of_decide_eq_false away
          simp only [Op.Fits, if_neg other] at fits
          simp [other, fits]
      | _ =>
          obtain rfl : starts = 0 := fits
          rfl
  | session op =>
      simp only [Op.Fits, if_true] at fits
      simp only [Op.zeroed, if_true]
      exact op.live_exec fits
  | _ =>
      obtain rfl : starts = 0 := fits
      rfl

/-- Who takes the last hold takes it from a held slot. -/
theorem zeroed (step : SlotStep i s op r s') (fits : op.Fits i starts s)
    (zero : 0 < op.zeroed i r) : s.live = 1 ∧ s'.ioCount = 0 := by
  cases step with
  | away away =>
      cases op with
      | session j op =>
          have other : j ≠ i := of_decide_eq_false away
          simp [other] at zero
      | _ => cases zero
  | session op =>
      simp only [Op.Fits, if_true] at fits
      simp only [Op.zeroed, if_true] at zero
      cases op with
      | decIo =>
          have last : s.ioCount - 1 = 0 := by
            by_contra more
            simp only [SessionOp.exec, decide_eq_false more] at zero
            cases zero
          exact ⟨Session.live_of_pos fits.1, last⟩
      | ioIsZero =>
          simp only [SessionOp.exec, decide_eq_false fits.1.ne'] at zero
          cases zero
      | _ => cases zero
  | _ => cases zero

theorem held (step : SlotStep i s op r s') (fits : op.Fits i starts s) :
    s'.outside + op.dropped i r = s.outside + op.grabbed i r := by
  cases step with
  | away away =>
      cases op with
      | session j op =>
          have other : j ≠ i := of_decide_eq_false away
          simp [other]
      | wsaRecv j => cases r <;> simp_all [Op.touches, share]
      | wsaSend j => cases r <;> simp_all [Op.touches, share]
      | completion => simp_all [Op.touches, share]
      | _ => rfl
  | session op =>
      simp only [Op.Fits, if_true] at fits
      simp only [Op.dropped, Op.grabbed, if_true]
      exact op.held_exec fits
  | recv =>
      simp only [Session.outside, Op.dropped, Op.grabbed, share_self]
      omega
  | send =>
      simp only [Session.outside, Op.dropped, Op.grabbed, share_self]
      omega
  | received transferred out =>
      simp only [Session.outside, Op.dropped, Op.grabbed, share_self]
      omega
  | sent transferred out =>
      simp only [Session.outside, Op.dropped, Op.grabbed, share_self]
      omega

end SlotStep

/-- What an operation with its result makes of what the server keeps. -/
inductive ServerStep (s : Server) : {α : Type} → Op n α → α → Server → Prop
  | away {α : Type} {op : Op n α} {r : α}
      (none : ∀ {op' : ServerOp α}, op ≠ .server op') : ServerStep s op r s
  | server {α : Type} {op : ServerOp α} {r : α} {s' : Server} (done : op.exec s = some (r, s')) :
      ServerStep s (.server op) r s'

theorem server_exec {α : Type} {op : Op n α} {c : Choice n} {m m' : Shared n} {r : α}
    (done : exec op c m = some (r, m')) : ServerStep m.server op r m'.server := by
  cases op with
  | session j op =>
      cases done
      exact .away nofun
  | server op =>
      obtain ⟨⟨r', server⟩, done', same⟩ := Option.map_eq_some_iff.mp done
      cases same
      exact .server done'
  | packet op =>
      cases done
      exact .away nofun
  | outside op =>
      obtain ⟨r', -, same⟩ := Option.map_eq_some_iff.mp done
      cases same
      exact .away nofun
  | wsaRecv j => rcases Shared.issue_cases done with ⟨-, rfl⟩ | ⟨-, rfl⟩ <;> exact .away nofun
  | wsaSend j => rcases Shared.issue_cases done with ⟨-, rfl⟩ | ⟨-, rfl⟩ <;> exact .away nofun
  | completion =>
      obtain ⟨s, -, rfl⟩ := Shared.complete_cases done
      exact .away nofun
  | undefined => cases done

/-- `CreateSession` has taken index `i`. -/
def Event.creates (i : Nat) : Event → Nat
  | .create slot => share slot i
  | _ => 0

/-- A `ReleaseSession` of slot `i` has begun. -/
def Event.leaves (i : Nat) : Event → Nat
  | .leave slot _ => share slot i
  | _ => 0

/-- A `ReleaseSession` of slot `i` has pushed an index. -/
def Event.returns (i : Nat) : Event → Nat
  | .push slot _ => share slot i
  | _ => 0

/-- How often something has happened. -/
def Server.happened (w : Event → Nat) (s : Server) : Nat := (s.log.map w).sum

/-- **What operations do to `indexStack`, the count and the record.** -/
theorem ServerOp.account_exec {α : Type} (i : Nat) {op : ServerOp α} {s s' : Server} {r : α}
    (done : op.exec s = some (r, s')) :
    s'.indexStack.count i + op.popped i r = s.indexStack.count i + op.pushedIndex i ∧
      s'.indexStack.length + op.pops = s.indexStack.length + op.pushes ∧
      s'.sessionCount + op.uncounts = s.sessionCount + op.counts ∧
      s'.happened (Event.creates i) = s.happened (Event.creates i) + op.popped i r ∧
      s'.happened (Event.leaves i) = s.happened (Event.leaves i) + op.left i ∧
      s'.happened (Event.returns i) = s.happened (Event.returns i) + op.returned i := by
  have recorded (s : Server) (w : Event → Nat) (e : Event) :
      (s.record e).happened w = s.happened w + w e := by
    rw [Server.happened, Server.record, List.map_cons, List.sum_cons, Nat.add_comm]
    rfl
  have counted (index : Nat) (rest : List Nat) :
      (index :: rest).count i = rest.count i + share index i := count_cons_share index i rest
  cases op with
  | popIndex =>
      obtain ⟨indexStack, sessionCount, sessionID, log⟩ := s
      cases indexStack with
      | nil => cases done
      | cons index rest =>
          cases done
          refine ⟨(counted _ rest).symm, rfl, rfl, ?_, ?_, ?_⟩
          all_goals exact recorded _ _ _
  | pushIndex slot index =>
      cases done
      refine ⟨counted index s.indexStack, rfl, rfl, ?_, ?_, ?_⟩
      all_goals exact recorded _ _ _
  | onClientJoin slot id =>
      cases done
      refine ⟨rfl, rfl, rfl, ?_, ?_, ?_⟩
      all_goals exact recorded _ _ _
  | onClientLeave slot id =>
      cases done
      refine ⟨rfl, rfl, rfl, ?_, ?_, ?_⟩
      all_goals exact recorded _ _ _
  | closesocket slot sock =>
      cases done
      refine ⟨rfl, rfl, rfl, ?_, ?_, ?_⟩
      all_goals exact recorded _ _ _
  | _ =>
      cases done
      simp [Server.happened]

theorem ServerStep.account {i : Nat} {s s' : Server} {α : Type} {op : Op n α} {r : α}
    (step : ServerStep s op r s') :
    s'.indexStack.count i + op.popped i r = s.indexStack.count i + op.pushedIndex i ∧
      s'.indexStack.length + op.onServer ServerOp.pops =
        s.indexStack.length + op.onServer ServerOp.pushes ∧
      s'.sessionCount + op.onServer ServerOp.uncounts =
        s.sessionCount + op.onServer ServerOp.counts ∧
      s'.happened (Event.creates i) = s.happened (Event.creates i) + op.popped i r ∧
      s'.happened (Event.leaves i) = s.happened (Event.leaves i) + op.left i ∧
      s'.happened (Event.returns i) = s.happened (Event.returns i) + op.returned i := by
  cases step with
  | away none =>
      cases op with
      | server op => exact absurd rfl none
      | _ => simp
  | server done => exact ServerOp.account_exec i done

/-! ## What a session lives on -/

/-- The thread will post another receive on slot `i`, or disconnect it. -/
@[simp] def Frame.renews (i : Fin n) : Frame n → Nat
  | .recvComplete _ j => share j i
  | .alloc (.frame j) => share j i
  | .setRef _ (.frame j) => share j i
  | .postRecv .check j .worker => share j i
  | .postRecv .inc j .worker => share j i
  | .postRecv .issue j _ => share j i
  | .postRecv .undo j _ => share j i
  | .disConnect .cas j => share j i
  | _ => 0

/-- The kernel takes over a receive of slot `i`. -/
@[simp] def Op.issued (i : Fin n) : {α : Type} → Op n α → α → Nat
  | _, .wsaRecv j, true => share j i
  | _, _, _ => 0

/-- The kernel hands one back. -/
@[simp] def Op.completed (i : Fin n) : {α : Type} → Op n α → α → Nat
  | _, .completion, c => if c.isSend then 0 else share c.slot i
  | _, _, _ => 0

theorem SlotStep.recvOut {i : Fin n} {s s' : Session} {α : Type} {op : Op n α} {r : α}
    (step : SlotStep i s op r s') :
    s'.recvOut + op.completed i r = s.recvOut + op.issued i r := by
  cases step with
  | away away =>
      cases op with
      | wsaRecv j => cases r <;> simp_all [Op.touches, share]
      | _ => simp_all [Op.touches, share]
  | session op => cases op <;> rfl
  | received transferred out =>
      simp only [Op.completed, Op.issued, share_self, Bool.false_eq_true, if_false]
      omega
  | _ => simp [share_self]

/-- The thread finds slot `i` disconnected, or disconnects it. -/
@[simp] def Frame.gives (i : Fin n) : (f : Frame n) → f.act.α → Prop
  | .recvComplete .check j, released => j = i ∧ released = true
  | .postRecv .check j .worker, released => j = i ∧ released = true
  | .disConnect .cas j, _ => j = i
  | _, _ => False

theorem not_gives_of_zeroed {i : Fin n} {f : Frame n} {r : f.act.α}
    (zero : 0 < f.act.op.zeroed i r) : ¬ f.gives i r := by
  intro gives
  cases f with
  | recvComplete pc j =>
      cases pc with
      | check => simp at zero
      | _ => cases gives
  | postRecv pc j who =>
      cases pc with
      | check => simp at zero
      | _ => cases gives
  | disConnect pc j =>
      cases pc with
      | cas => simp at zero
      | _ => cases gives
  | _ => cases gives

/-- A session that is not disconnected is passed on. -/
theorem renews_next (i : Fin n) (f : Frame n) (r : f.act.α) (kept : ¬ f.gives i r) :
    f.renews i + f.act.op.completed i r ≤
      ((f.act.next r).map (Frame.renews i)).sum + f.act.op.issued i r := by
  have goes := f.goes r
  generalize f.act.next r = fs at goes ⊢
  cases goes with
  | lock id use r j named =>
      clear kept
      revert r
      rw [Frame.act_lock_of_lt use named]
      simp
  | lockStray id use r outside =>
      clear kept
      revert r
      rw [Frame.act_lock_of_le use outside]
      simp
  | recvReleased j who =>
      cases who with
      | accept => simp
      | worker =>
          have other : j ≠ i := fun same => kept ⟨same, rfl⟩
          simp [share, other]
  | receivedReleased j =>
      have other : j ≠ i := fun same => kept ⟨same, rfl⟩
      simp [share, other]
  | casLost j | casWon j =>
      have other : j ≠ i := kept
      simp [share, other]
  | recvLive j who | recvInc j who => cases who <;> simp
  | alloc use p => cases use <;> simp
  | _ => simp

end ChattingServer
