import ChattingServer.BoundedWork
import ChattingServer.SlotConservation
import ChattingServer.SlotStack

/-!
# The session layer comes to rest

Work is bounded (`BoundedWork`), and no thread has to wait for another: whatever
the others do, its next operation can be carried out.  The exceptions are a pop of
an empty `indexStack`, which no run comes to (`Roomy`), an index popped that is no
slot's, which none does either (`InRange`), and a call with an ID whose slot does
not exist.  So from every reachable state the threads can finish all that they
have in hand before anything else comes in (`work_completes`), and where sessions
are locked only while they are held, no slot is then lost (`sessions_return`).
-/

namespace ChattingServer

variable {n : Nat}

/-! ## Indices name slots -/

/-- The index that `ReleaseSession` has read. -/
@[simp] def ReleaseSession.index : ReleaseSession → Option Nat
  | .initSock index => some index
  | .initID index => some index
  | .initIndex index => some index
  | .initSendFlag index => some index
  | .initSendCount index => some index
  | .initDrainSend index => some index
  | .initDrainComplete index => some index
  | .initReleased index => some index
  | .initIo index => some index
  | .push index => some index
  | _ => none

@[simp] def Frame.InRange : Frame n → Prop
  | .releaseSession pc _ => ∀ index, pc.index = some index → index < n
  | .undefined => False
  | _ => True

@[simp] def Op.InRange : {α : Type} → Op n α → Prop
  | _, .session _ (.storeIndex index) => index < n
  | _, .server (.pushIndex _ index) => index < n
  | _, _ => True

theorem Op.inRange_of_aside {α : Type} {op : Op n α} (aside : op.aside = true) : op.InRange := by
  cases op with
  | session i op =>
      cases op with
      | storeIndex index => cases aside
      | _ => trivial
  | server op => cases aside
  | _ => trivial

theorem Frame.inRange_of_enters {f : Frame n} (enters : f.enters = true) : f.InRange := by
  cases f with
  | releaseSession pc i =>
      cases pc with
      | loadID => simp
      | _ => cases enters
  | undefined => cases enters
  | _ => trivial

theorem Frame.inRange_act {f : Frame n} (inRange : f.InRange) : f.act.op.InRange := by
  by_cases outside : f.outside = true
  · exact Op.inRange_of_aside (Frame.aside_of_outside outside)
  cases f with
  | acceptThread pc =>
      cases pc with
      | setIndex i sock => exact i.isLt
      | _ => trivial
  | disConnect pc j => cases pc <;> trivial
  | releaseSession pc j =>
      cases pc with
      | initIndex index => exact j.pos
      | push index => exact inRange index rfl
      | _ => trivial
  | undefined => cases inRange
  | _ => exact absurd rfl outside

/-- No index that is stored is out of range, nor is one that a thread has
read. -/
structure InRange (s : Conf (Frame n) (Shared n)) : Prop where
  stack : ∀ index ∈ s.mem.server.indexStack, index < n
  slot : ∀ i, (s.mem.slot i).index < n
  frames : ∀ stack ∈ s.threads, ∀ f ∈ stack, f.InRange

theorem SlotStep.inRange {i : Fin n} {s s' : Session} {α : Type} {op : Op n α} {r : α}
    (step : SlotStep i s op r s') (stored : op.InRange) (before : s.index < n) :
    s'.index < n := by
  cases step with
  | session op =>
      cases op with
      | storeIndex index => exact stored
      | _ => exact before
  | _ => exact before

theorem ServerStep.inRange {s s' : Server} {α : Type} {op : Op n α} {r : α}
    (step : ServerStep s op r s') (pushed : op.InRange)
    (before : ∀ index ∈ s.indexStack, index < n) : ∀ index ∈ s'.indexStack, index < n := by
  cases step with
  | away none => exact before
  | @server op _ _ done =>
      cases op with
      | popIndex =>
          obtain ⟨indexStack, sessionCount, sessionID, log⟩ := s
          cases indexStack with
          | nil => cases done
          | cons first left =>
              cases done
              exact (List.forall_mem_cons.mp before).2
      | pushIndex slot index =>
          cases done
          exact List.forall_mem_cons.mpr ⟨pushed, before⟩
      | _ =>
          cases done
          exact before

namespace InRange

variable {s : Conf (Frame n) (Shared n)} (inv : InRange s) {f : Frame n} {c : Choice n}
  {r : f.act.α} {m : Shared n} (done : exec f.act.op c s.mem = some (r, m))
include inv done

theorem indexed_next : f.Indexed r := by
  cases f with
  | acceptThread pc =>
      cases pc with
      | pop sock =>
          obtain ⟨⟨index, server⟩, popped, same⟩ := Option.map_eq_some_iff.mp done
          cases same
          exact inv.stack _ (mem_of_popIndex popped)
      | _ => trivial
  | _ => trivial

theorem frames_next (own : f.InRange) : ∀ g ∈ f.act.next r, g.InRange := by
  by_cases outside : f.outside = true
  · intro g member
    exact Frame.inRange_of_enters (Frame.enters_next outside r g member)
  cases f with
  | acceptThread pc =>
      cases pc with
      | accept => cases r <;> simp
      | full sock => cases r <;> simp
      | pop sock =>
          have indexed : @LT.lt Nat _ r n := inv.indexed_next done
          simp [indexed]
      | _ => simp
  | disConnect pc j => cases pc <;> cases r <;> simp
  | releaseSession pc j =>
      cases pc with
      | loadIndex =>
          cases done
          have inside : (SessionOp.loadIndex.exec (s.mem.slot j)).1 < n := inv.slot j
          simpa using inside
      | loadID => simp
      | leave id => simp
      | drainSend => cases r <;> simp
      | drainComplete => cases r <;> simp
      | initDrainSend index => cases r <;> simpa using own
      | initDrainComplete index => cases r <;> simpa using own
      | push index => simp
      | count => simp
      | _ => simpa using own
  | undefined => cases own
  | _ => exact absurd rfl outside

end InRange

theorem InRange.boot (n : Nat) (sessionID : UINT64) (kinds : List ThreadKind) :
    InRange (Shared.boot n sessionID kinds) where
  stack _ member := List.mem_range.mp member
  slot i := i.pos
  frames stack member f inside := by
    rcases Shared.boot_frames n sessionID kinds stack member f inside with rfl | ⟨kind, rfl⟩
    · trivial
    · cases kind <;> trivial

theorem InRange.step {s s' : Conf (Frame n) (Shared n)} {t : Nat} {c : Choice n}
    (inv : InRange s) (step : (iocp n).step s t c = some s') : InRange s' := by
  obtain ⟨f, rest, r, m, here, done, rfl⟩ := iocp_step_cases step
  have own : f.InRange := inv.frames _ (List.mem_of_getElem? here) f List.mem_cons_self
  have stored := Frame.inRange_act own
  refine ⟨(server_exec done).inRange stored inv.stack,
    fun i => (slot_exec i done).inRange stored (inv.slot i), ?_⟩
  refine Machine.forall_frames_step here (inv.frames_next done own) ?_
  intro stack member g inside
  obtain ⟨stack', member', inside'⟩ := Machine.exists_of_stayed here member inside
  exact inv.frames stack' member' g inside'

/-! ## No thread has to wait for another -/

/-- The thread is where something comes in: a client, a completion, a handler's
answer, a login job or a call. -/
@[simp] def Frame.waits : Frame n → Bool
  | .acceptThread .accept => true
  | .workerThread .idle => true
  | .onRecv _ _ => true
  | .redisThread => true
  | .caller => true
  | _ => false

/-- `SessionLock` is called with an ID that names no slot. -/
@[simp] def Frame.Foreign : Frame n → Prop
  | .lock id _ => n ≤ getSessionIndex id
  | _ => False

/-- One way to go on: the kernel accepts, and what is looked for is there, but
for another frame in the ring. -/
@[simp] def Frame.goesBy : Frame n → Choice n
  | .postRecv .issue _ _ => .outcome true
  | .postSend .issue _ => .outcome true
  | .recvComplete .ring _ => .ring .stop
  | .recvComplete (.dequeue _) _ => .outcome true
  | .recvComplete (.decode _) _ => .outcome true
  | .completeLogin _ _ _ => .outcome true
  | _ => .none

/-- Whoever does not wait can go on, without anything coming in. -/
theorem Frame.goes_on {f : Frame n} {m : Shared n} (own : f.InRange)
    (finds : ∀ sock, f = .acceptThread (.pop sock) → m.server.indexStack ≠ [])
    (busy : f.waits = false) (named : ¬ f.Foreign) :
    ∃ (r : f.act.α) (m' : Shared n), exec f.act.op f.goesBy m = some (r, m') ∧ f.intake r = 0 := by
  cases f with
  | acceptThread pc =>
      cases pc with
      | accept => cases busy
      | pop sock =>
          obtain ⟨index, rest, stacked⟩ := List.exists_cons_of_ne_nil (finds sock rfl)
          refine ⟨index,
            { m with server := { m.server with indexStack := rest }.record (.create index) },
            ?_, rfl⟩
          simp only [act, AcceptThread.act, ChattingServer.exec, ServerOp.exec, stacked,
            Option.map_some]
      | _ => exact ⟨_, _, rfl, rfl⟩
  | postRecv pc j who => cases pc <;> exact ⟨_, _, rfl, rfl⟩
  | disConnect pc j => cases pc <;> exact ⟨_, _, rfl, rfl⟩
  | releaseSession pc j => cases pc <;> exact ⟨_, _, rfl, rfl⟩
  | lock id use =>
      have inside : getSessionIndex id < n := Nat.lt_of_not_le named
      have enabled : ∃ (r : (Frame.lock id use : Frame n).act.α) (m' : Shared n),
          exec (Frame.lock id use : Frame n).act.op .none m = some (r, m') := by
        rw [Frame.act_lock_of_lt use (i := ⟨_, inside⟩) rfl]
        exact ⟨_, _, rfl⟩
      obtain ⟨r, m', done⟩ := enabled
      exact ⟨r, m', done, rfl⟩
  | sessionLock pc j id use => cases pc <;> exact ⟨_, _, rfl, rfl⟩
  | sendPacket pc j p => cases pc <;> exact ⟨_, _, rfl, rfl⟩
  | postSend pc j => cases pc <;> exact ⟨_, _, rfl, rfl⟩
  | sendComplete pc j => cases pc <;> exact ⟨_, _, rfl, rfl⟩
  | recvComplete pc j => cases pc <;> exact ⟨_, _, rfl, rfl⟩
  | workerThread pc =>
      cases pc with
      | idle => cases busy
      | _ => exact ⟨_, _, rfl, rfl⟩
  | onRecv id p => cases busy
  | redisThread => cases busy
  | caller => cases busy
  | undefined => cases own
  | _ => exact ⟨_, _, rfl, rfl⟩

/-- What keeps the threads going. -/
structure Able (s : Conf (Frame n) (Shared n)) : Prop where
  batches : Batches s
  inRange : InRange s
  roomy : Roomy s

theorem Able.boot (n : Nat) (sessionID : UINT64) (kinds : List ThreadKind) :
    Able (Shared.boot n sessionID kinds) := by
  refine ⟨.boot n sessionID kinds, .boot n sessionID kinds, ?_⟩
  have roomy := Roomy.boot n sessionID kinds []
  rwa [Shared.bootReleasing, List.map_nil, List.append_nil] at roomy

theorem Able.step {s s' : Conf (Frame n) (Shared n)} {t : Nat} {c : Choice n} (able : Able s)
    (step : (iocp n).step s t c = some s') : Able s' :=
  ⟨able.batches.step step, able.inRange.step step, able.roomy.step step⟩

theorem Able.of_run {guard : Conf (Frame n) (Shared n) → Nat → Choice n → Prop}
    {sessionID : UINT64} {kinds : List ThreadKind} {s : Conf (Frame n) (Shared n)}
    (run : (iocp n).Steps guard (Shared.boot n sessionID kinds) s) : Able s :=
  run.invariant (.boot n sessionID kinds) fun _ _ _ _ able _ step => able.step step

/-- Whoever pops finds an index, and it is a slot's. -/
theorem Able.pops {s : Conf (Frame n) (Shared n)} (able : Able s) {t sock : Nat}
    (top : s.top t = some (.acceptThread (.pop sock))) :
    ∃ index rest, s.mem.server.indexStack = index :: rest ∧ index < n := by
  obtain ⟨index, rest, stacked⟩ := List.exists_cons_of_ne_nil (able.roomy.finds top)
  exact ⟨index, rest, stacked, able.inRange.stack index (stacked ▸ List.mem_cons_self)⟩

/-- A thread that does not wait, and has not been given an ID that names no slot,
can take its next step whatever the others do, and nothing comes in by it. -/
theorem Able.goes_on {s : Conf (Frame n) (Shared n)} (able : Able s) (h : Work) {t : Nat}
    {f : Frame n} (top : s.top t = some f) (busy : f.waits = false) (named : ¬ f.Foreign) :
    ∃ s' h', (iocp n).noted Work.note (s, h) t f.goesBy = some (s', h') ∧
      h'.intake = h.intake ∧ h'.steps = h.steps + 1 := by
  obtain ⟨rest, here⟩ := Conf.top_cases top
  have own := able.inRange.frames _ (List.mem_of_getElem? here) f List.mem_cons_self
  have finds : ∀ sock, f = .acceptThread (.pop sock) → s.mem.server.indexStack ≠ [] :=
    fun sock same => able.roomy.finds (same ▸ top)
  obtain ⟨r, m, done, none⟩ := Frame.goes_on own finds busy named
  have same : (Work.note t f rest r h).intake = h.intake := congrArg (h.intake + ·) none
  exact ⟨_, _, Machine.noted_eq here done h, same, rfl⟩

/-! ## At rest -/

/-- Every thread is through, or waits, or is barred from going on. -/
def AtRest (barred : Shared n → Frame n → Prop) (s : Conf (Frame n) (Shared n)) : Prop :=
  ∀ t f, s.top t = some f → f.waits = true ∨ barred s.mem f

section Rest

variable {guard : Conf (Frame n) (Shared n) → Nat → Choice n → Prop}
  {barred : Shared n → Frame n → Prop} (named : ∀ m f, ¬ barred m f → ¬ f.Foreign)
  (admits : ∀ s t f, s.top t = some f → ¬ barred s.mem f → guard s t f.goesBy)
include named admits

/-- A thread that has something left to do uses up some of it. -/
theorem Able.advances {s : Conf (Frame n) (Shared n)} (able : Able s) (h : Work)
    (unsettled : ¬ AtRest barred s) :
    ∃ s' h', (iocp n).NotedSteps Work.note guard (s, h) (s', h') ∧
      h'.intake = h.intake ∧ Able s' ∧
      s'.tally Frame.left + 3 * s'.mem.backlog < s.tally Frame.left + 3 * s.mem.backlog := by
  unfold AtRest at unsettled
  push Not at unsettled
  obtain ⟨t, f, top, busy, free⟩ := unsettled
  obtain ⟨s', h', step, same, more⟩ :=
    able.goes_on h top (eq_false_of_ne_true busy) (named s.mem f free)
  have one := Relation.ReflTransGen.single
    (r := fun p q => ∃ t c, guard p.1 t c ∧ (iocp n).noted Work.note p t c = some q)
    ⟨t, f.goesBy, admits s t f top free, step⟩
  refine ⟨s', h', one, same, able.step (Machine.step_of_noted step), ?_⟩
  have paid := able.batches.paid one
  omega

theorem Able.settles {s : Conf (Frame n) (Shared n)} (able : Able s) (h : Work) :
    ∃ s' h', (iocp n).NotedSteps Work.note guard (s, h) (s', h') ∧ h'.intake = h.intake ∧
      h'.steps ≤ h.steps + s.tally Frame.left + 3 * s.mem.backlog ∧ AtRest barred s' := by
  -- what is left gets less with every step
  have rests : ∃ s' h', (iocp n).NotedSteps Work.note guard (s, h) (s', h') ∧
      h'.intake = h.intake ∧ AtRest barred s' := by
    induction owed : s.tally Frame.left + 3 * s.mem.backlog using Nat.strong_induction_on
      generalizing s h with
    | _ owed' ih =>
        by_cases settled : AtRest barred s
        · exact ⟨s, h, .refl, rfl, settled⟩
        · obtain ⟨s₁, h₁, first, same, able₁, less⟩ := able.advances named admits h settled
          obtain ⟨s', h', later, same', settled'⟩ := ih _ (owed ▸ less) able₁ h₁ rfl
          exact ⟨s', h', first.trans later, same'.trans same, settled'⟩
  obtain ⟨s', h', later, same, settled⟩ := rests
  have paid := able.batches.paid later
  refine ⟨s', h', later, same, ?_, settled⟩
  rw [same] at paid
  omega

end Rest

/-- A slot is being filled or emptied, or will be. -/
@[simp] def Frame.underway : Frame n → Bool
  | .acceptThread .accept => false
  | .acceptThread _ => true
  | .postRecv _ _ .accept => true
  | .workerThread (.check _) => true
  | .releaseSession _ _ => true
  | _ => false

/-- The thread is dropping a packet. -/
@[simp] def Frame.drops : Frame n → Bool
  | .subRef _ => true
  | .free _ => true
  | _ => false

/-- Whoever fills or empties a slot is interrupted by nothing but the dropping of
a packet. -/
def Orderly (stack : List (Frame n)) : Prop :=
  stack.Pairwise fun f g => f.drops = true ∨ g.underway = false

theorem drops_next {f : Frame n} (drops : f.drops = true) (r : f.act.α) :
    ∀ g ∈ f.act.next r, g.drops = true := by
  cases f with
  | subRef p => cases r <;> simp
  | free p => simp
  | _ => cases drops

theorem orderly_next (f : Frame n) (r : f.act.α) : Orderly (f.act.next r) := by
  unfold Orderly
  have goes := f.goes r
  generalize f.act.next r = fs at goes ⊢
  cases goes with
  | setRefResponse p targets =>
      refine List.pairwise_append.mpr ⟨?_, List.pairwise_singleton _ _, ?_⟩
      · exact List.pairwise_map.mpr (List.pairwise_of_forall fun _ _ => Or.inr rfl)
      · intro g _ h last
        rw [List.mem_singleton.mp last]
        exact Or.inr rfl
  | _ => simp

theorem Orderly.step {f : Frame n} {rest : List (Frame n)} (orderly : Orderly (f :: rest))
    (r : f.act.α) : Orderly (f.act.next r ++ rest) := by
  obtain ⟨top, below⟩ := List.pairwise_cons.mp orderly
  refine List.pairwise_append.mpr ⟨orderly_next f r, below, ?_⟩
  intro g new b old
  rcases top b old with drops | calm
  · exact Or.inl (drops_next drops r g new)
  · exact Or.inr calm

theorem orderly_boot (n : Nat) (sessionID : UINT64) (kinds : List ThreadKind) :
    (Shared.boot n sessionID kinds).Forall Orderly := by
  intro stack member
  rcases List.mem_cons.mp member with rfl | other
  · exact List.pairwise_singleton _ _
  · obtain ⟨kind, -, rfl⟩ := List.mem_map.mp other
    exact List.pairwise_singleton _ _

theorem orderly_of_run {guard : Conf (Frame n) (Shared n) → Nat → Choice n → Prop}
    {sessionID : UINT64} {kinds : List ThreadKind} {s : Conf (Frame n) (Shared n)}
    (run : (iocp n).Steps guard (Shared.boot n sessionID kinds) s) : s.Forall Orderly := by
  refine run.invariant (orderly_boot n sessionID kinds) ?_
  intro s t c s' all _ step
  obtain ⟨f, rest, r, m, here, -, rfl⟩ := iocp_step_cases step
  exact Machine.forall_step all here fun orderly => orderly.step r

/-- A thread that waits, or is about to lock, has no slot in hand. -/
theorem AtRest.calm {barred : Shared n → Frame n → Prop} {s : Conf (Frame n) (Shared n)}
    (rested : AtRest barred s) (locks : ∀ m f, barred m f → ∃ id use, f = .lock id use)
    (orderly : s.Forall Orderly) :
    ∀ stack ∈ s.threads, ∀ f ∈ stack, f.underway = false := by
  intro stack member f inside
  obtain ⟨t, here⟩ := List.mem_iff_getElem?.mp member
  cases stack with
  | nil => cases inside
  | cons top below =>
      have still : top.underway = false ∧ top.drops = false := by
        rcases rested t top (Conf.top_of_here here) with waits | stays
        · cases top with
          | acceptThread pc =>
              cases pc with
              | accept => exact ⟨rfl, rfl⟩
              | _ => cases waits
          | workerThread pc =>
              cases pc with
              | idle => exact ⟨rfl, rfl⟩
              | _ => cases waits
          | onRecv id p => exact ⟨rfl, rfl⟩
          | redisThread => exact ⟨rfl, rfl⟩
          | caller => exact ⟨rfl, rfl⟩
          | _ => cases waits
        · obtain ⟨id, use, rfl⟩ := locks _ _ stays
          exact ⟨rfl, rfl⟩
      rcases List.mem_cons.mp inside with rfl | deeper
      · exact still.1
      · rcases (List.pairwise_cons.mp (orderly _ member)).1 f deeper with drops | calm
        · rw [still.2] at drops
          cases drops
        · exact calm

/-- A place that is not underway is neither filling nor emptying a slot. -/
theorem weights_of_calm {f : Frame n} (calm : f.underway = false) :
    (∀ i, f.token i = 0) ∧ f.uncounted = 0 ∧ f.overcounted = 0 := by
  cases f with
  | acceptThread pc =>
      cases pc with
      | accept => exact ⟨fun _ => rfl, rfl, rfl⟩
      | _ => cases calm
  | postRecv pc j who =>
      cases who with
      | accept => cases calm
      | worker => cases pc <;> exact ⟨fun _ => rfl, rfl, rfl⟩
  | releaseSession pc j => cases calm
  | workerThread pc =>
      cases pc with
      | check j => cases calm
      | _ => exact ⟨fun _ => rfl, rfl, rfl⟩
  | _ => exact ⟨fun _ => rfl, rfl, rfl⟩

/-- `SessionLock` is called for a slot that nothing holds. -/
def Frame.Unheld (m : Shared n) : Frame n → Prop
  | .lock id _ => ∀ i : Fin n, getSessionIndex id = i → (m.slot i).ioCount = 0
  | _ => False

theorem Frame.eq_lock_of_unheld {m : Shared n} {f : Frame n} (unheld : f.Unheld m) :
    ∃ id use, f = .lock id use := by
  cases f with
  | lock id use => exact ⟨id, use, rfl⟩
  | _ => cases unheld

theorem Frame.Foreign.unheld {f : Frame n} (foreign : f.Foreign) (m : Shared n) :
    f.Unheld m := by
  cases f with
  | lock id use =>
      intro i named
      have outside : n ≤ getSessionIndex id := foreign
      exact absurd i.isLt (by omega)
  | _ => cases foreign

/-- Whoever else goes on is within the guard. -/
theorem guarded_goesBy {s : Conf (Frame n) (Shared n)} {t : Nat} {f : Frame n}
    (top : s.top t = some f) (held : ¬ f.Unheld s.mem) : Guarded s t f.goesBy := by
  unfold Guarded
  rw [top]
  cases f with
  | lock id use =>
      intro i named free
      apply held
      intro j same
      obtain rfl : j = i := Fin.ext (same.symm.trans named)
      exact free
  | postRecv pc j who =>
      cases pc with
      | issue => cases who <;> trivial
      | _ => trivial
  | _ => trivial

/-- **No session is left behind**, for runs whose steps are guarded.  From every
state the threads can go on within the guard, with nothing coming in, until each
of them waits, is through, or is about to lock a slot that nothing holds; and
then every slot is either free, once and with nothing outstanding, or held by
exactly what is outstanding on it and the threads whose handlers wait, and the
sessions are counted. -/
theorem sessions_return {sessionID : UINT64} {kinds : List ThreadKind}
    {s : Conf (Frame n) (Shared n)} {h : Work}
    (run : (iocp n).NotedSteps Work.note Guarded
      (Shared.boot n sessionID kinds, .nothing) (s, h)) :
    ∃ s' h', (iocp n).NotedSteps Work.note Guarded (s, h) (s', h') ∧
      h'.intake = h.intake ∧
      h'.steps ≤ h.steps + s.tally Frame.left + 3 * s.mem.backlog ∧
      AtRest Frame.Unheld s' ∧
      (∀ i : Fin n,
        (s'.mem.server.indexStack.count ↑i = 1 ∧ (s'.mem.slot i).ioCount = 0 ∧
            (s'.mem.slot i).recvOut = 0 ∧ (s'.mem.slot i).sendOut = 0) ∨
          (s'.mem.server.indexStack.count ↑i = 0 ∧ 0 < (s'.mem.slot i).ioCount ∧
            (s'.mem.slot i).ioCount = (s'.mem.slot i).recvOut + (s'.mem.slot i).sendOut +
              s'.tally (Frame.holds i))) ∧
      s'.mem.server.sessionCount + s'.mem.server.indexStack.length = n := by
  have named : ∀ m (f : Frame n), ¬ f.Unheld m → ¬ f.Foreign :=
    fun m f held foreign => held (foreign.unheld m)
  obtain ⟨s', h', later, same, most, rested⟩ :=
    (Able.of_run run.steps).settles named (fun _ _ _ => guarded_goesBy) h
  have reached : (iocp n).Steps Guarded (Shared.boot n sessionID kinds) s' :=
    Machine.NotedSteps.steps (run.trans later)
  have inv := Accounted.of_run reached
  have calm := rested.calm (fun _ _ => Frame.eq_lock_of_unheld) (orderly_of_run reached)
  have none {w : Frame n → Nat} (light : ∀ f, f.underway = false → w f = 0) : s'.tally w = 0 :=
    Conf.tally_eq_zero fun stack member f inside => light f (calm stack member f inside)
  refine ⟨s', h', later, same, most, rested, ?_, ?_⟩
  · intro i
    have token := none fun f quiet => (weights_of_calm quiet).1 i
    have once := inv.once i
    have held := inv.held i
    have positive : 0 ≤ (s'.mem.slot i).ioCount := inv.ioCount_nonneg
    unfold sessions at once
    unfold Session.outside at held
    rcases positive.eq_or_lt with free | busy
    · rw [token, Session.live_of_zero free.symm] at once
      exact Or.inl ⟨by omega, free.symm, by omega, by omega⟩
    · rw [token, Session.live_of_pos busy] at once
      exact Or.inr ⟨by omega, busy, by omega⟩
  · have counted := inv.counted
    have uncounted := none fun f quiet => (weights_of_calm quiet).2.1
    have overcounted := none fun f quiet => (weights_of_calm quiet).2.2
    rw [uncounted, overcounted] at counted
    omega

/-- A worker is about to release the only session of a server of one. -/
theorem sessions_return_close :
    ∃ s h s' h', (iocp 1).NotedSteps Work.note Guarded
        (Shared.boot 1 0 [.worker], .nothing) (s, h) ∧
      h = ⟨18, 2⟩ ∧ (iocp 1).NotedSteps Work.note Guarded (s, h) (s', h') ∧ h'.intake = 2 ∧
      AtRest Frame.Unheld s' ∧
      s'.mem.server.sessionCount + s'.mem.server.indexStack.length = 1 := by
  have reached : ((iocp 1).runNoted Work.note Guarded (acceptOne ++ closeOne.take 5)
      (Shared.boot 1 0 [.worker], .nothing)).map Prod.snd = some ⟨18, 2⟩ := by
    decide +kernel
  obtain ⟨⟨s, h⟩, taken, work⟩ := Option.map_eq_some_iff.mp reached
  have run := Machine.NotedSteps.of_run taken
  obtain ⟨s', h', later, same, -, rested, -, counted⟩ := sessions_return run
  exact ⟨s, h, s', h', run, work, later, same.trans (congrArg Work.intake work), rested, counted⟩

end ChattingServer
