import ChattingServer.IOCPServer

/-!
# Login jobs and the event that announces them

`EnqueueRedis` pushes a job, then signals `redis_event`; `RedisThread` waits for
the event, then pops until `redisQ` is empty.  The event resets itself when a
wait returns, and signalling it again before that leaves no trace.  A job that
has been pushed is still seen: until `redisQ` is found empty, the event is
signalled, or about to be, or the thread is past its wait (`Awaited`).
-/

namespace ChattingServer

/-- `st_Redis`. -/
abbrev RedisJob : Type := UINT64 × PacketPtr

namespace LoginJobs

/-- What the threads share. -/
structure Shared where
  redisQ : List RedisJob
  /-- The event is signalled. -/
  redis_event : Bool
  exit : Bool

inductive Op : Type → Type 1
  | loadExit : Op Bool
  /-- `WaitForSingleObject(redis_event, INFINITE)`, of an auto-reset event. -/
  | wait : Op Unit
  | setEvent : Op Unit
  | push (job : RedisJob) : Op Unit
  | pop : Op (Option RedisJob)
  /-- A request for a login is handled. -/
  | request : Op RedisJob
  /-- Redis is asked, and the login completed. -/
  | complete (job : RedisJob) : Op Unit

inductive Frame where
  /-- A thread that may call `EnqueueRedis`. -/
  | worker
  | push (job : RedisJob)
  | setEvent
  | testExit
  | wait
  | testExitAgain
  | pop
  | complete (job : RedisJob)
  deriving DecidableEq

@[simp] def Frame.act : Frame → Act Op Frame
  | .worker => ⟨.request, fun job => [.push job, .worker]⟩
  | .push job => ⟨.push job, fun _ => [.setEvent]⟩
  | .setEvent => ⟨.setEvent, fun _ => []⟩
  | .testExit => ⟨.loadExit, fun
      | true => []
      | false => [.wait]⟩
  | .wait => ⟨.wait, fun _ => [.testExitAgain]⟩
  | .testExitAgain => ⟨.loadExit, fun
      | true => []
      | false => [.pop]⟩
  | .pop => ⟨.pop, fun
      | some job => [.complete job]
      | none => [.testExit]⟩
  | .complete job => ⟨.complete job, fun _ => [.pop]⟩

/-- A wait for an event that is not signalled does not return. -/
def exec {α : Type} (op : Op α) (c : RedisJob) (m : Shared) : Option (α × Shared) :=
  match op with
  | .loadExit => some (m.exit, m)
  | .wait => if m.redis_event then some ((), { m with redis_event := false }) else none
  | .setEvent => some ((), { m with redis_event := true })
  | .push job => some ((), { m with redisQ := pushBounded redisCapacity m.redisQ job })
  | .pop => some (m.redisQ.head?, { m with redisQ := m.redisQ.tail })
  | .request => some (c, m)
  | .complete _ => some ((), m)

/-- The login jobs as a machine; a choice is the job of the next request. -/
def loginJobs : Machine Op Frame RedisJob Shared where
  act := Frame.act
  exec := exec

/-- `RedisThread`, with any number of workers. -/
def boot (workers : Nat) : Conf Frame Shared where
  mem := ⟨[], false, false⟩
  threads := [.testExit] :: List.replicate workers [.worker]

def Frame.pushes : Frame → Bool
  | .push _ => true
  | _ => false

/-- A push about to be made finds room. -/
def PushFits (s : Conf Frame Shared) (t : Nat) : Prop :=
  (s.top t).any Frame.pushes = true → s.mem.redisQ.length < redisCapacity

instance {s : Conf Frame Shared} {t : Nat} : Decidable (PushFits s t) :=
  inferInstanceAs (Decidable (_ → _))

/-- The jobs pushed and the jobs popped, in order. -/
structure Served where
  pushed : List RedisJob
  popped : List RedisJob

def Served.note (_ : Nat) (f : Frame) (_ : List Frame) (r : f.act.α) (h : Served) : Served :=
  match f, r with
  | .push job, _ => { h with pushed := h.pushed ++ [job] }
  | .pop, some job => { h with popped := h.popped ++ [job] }
  | _, _ => h

/-! ## The places of the threads -/

/-- The places of `RedisThread` from which it goes on to pop. -/
def Frame.drains : Frame → Bool
  | .testExitAgain => true
  | .pop => true
  | .complete _ => true
  | _ => false

/-- The places of `RedisThread`. -/
def Frame.redis (f : Frame) : Bool := f.drains || f = .testExit || f = .wait

/-- What the stack of a worker is. -/
inductive Worker : List Frame → Prop
  | idle : Worker [.worker]
  | push (job : RedisJob) : Worker [.push job, .worker]
  | setEvent : Worker [.setEvent, .worker]

/-- `RedisThread` and the workers. -/
structure Placed (s : Conf Frame Shared) : Prop where
  redis : ∃ f, s.threads[0]? = some [f] ∧ f.redis = true
  workers : ∀ t stack, s.threads[t + 1]? = some stack → Worker stack

/-- Nothing is queued, or somebody sees to it. -/
def Awaited (s : Conf Frame Shared) : Prop :=
  s.mem.redisQ = [] ∨ s.mem.redis_event = true ∨ (∃ f, s.top 0 = some f ∧ f.drains = true) ∨
    ∃ t, s.top t = some .setEvent

structure Inv (s : Conf Frame Shared) (h : Served) : Prop where
  placed : Placed s
  runs : s.mem.exit = false
  awaited : Awaited s
  order : h.pushed = h.popped ++ s.mem.redisQ

section Step

variable {s : Conf Frame Shared} {m : Shared} {t : Nat} {f g : Frame} {rest fs : List Frame}

theorem Placed.redis_next (placed : Placed s) (here : s.threads[0]? = some (f :: rest))
    (goes : g.redis = true) : Placed ⟨m, s.threads.set 0 [g]⟩ := by
  obtain ⟨inside, -⟩ := List.getElem?_eq_some_iff.mp here
  refine ⟨⟨g, List.getElem?_set_self inside, goes⟩, fun t stack there => ?_⟩
  rw [List.getElem?_set_ne (Nat.zero_ne_add_one t)] at there
  exact placed.workers t stack there

theorem Placed.worker_next (placed : Placed s) (here : s.threads[t + 1]? = some rest)
    (worker : Worker fs) : Placed ⟨m, s.threads.set (t + 1) fs⟩ := by
  obtain ⟨inside, -⟩ := List.getElem?_eq_some_iff.mp here
  obtain ⟨g, there, redis⟩ := placed.redis
  refine ⟨⟨g, ?_, redis⟩, fun k stack there => ?_⟩
  · rw [List.getElem?_set_ne (Nat.succ_ne_zero t)]
    exact there
  · rcases eq_or_ne t k with rfl | other
    · rw [List.getElem?_set_self inside] at there
      cases there
      exact worker
    · rw [List.getElem?_set_ne (by omega)] at there
      exact placed.workers k stack there

/-- A step that neither takes nor gives anything. -/
theorem Awaited.aside (awaited : Awaited s) (here : s.threads[t]? = some (f :: rest))
    (idle : f.drains = false) (other : f ≠ .setEvent) :
    Awaited ⟨s.mem, s.threads.set t fs⟩ := by
  have stays : ∀ {k g}, s.top k = some g → g ≠ f →
      (Conf.mk s.mem (s.threads.set t fs)).top k = some g := by
    intro k g there different
    have apart : t ≠ k := by
      rintro rfl
      exact different (Option.some.inj (there.symm.trans (Conf.top_of_here here)))
    rw [Conf.top_set_of_ne apart]
    exact there
  rcases awaited with none | signalled | ⟨g, there, drains⟩ | ⟨k, there⟩
  · exact Or.inl none
  · exact Or.inr (Or.inl signalled)
  · refine Or.inr (Or.inr (Or.inl ⟨g, stays there ?_, drains⟩))
    rintro rfl
    exact Bool.false_ne_true (idle.symm.trans drains)
  · exact Or.inr (Or.inr (Or.inr ⟨k, stays there other.symm⟩))

theorem top_set_self (here : s.threads[t]? = some (f :: rest)) :
    (Conf.mk m (s.threads.set t (g :: fs))).top t = some g := by
  obtain ⟨inside, -⟩ := List.getElem?_eq_some_iff.mp here
  exact Conf.top_of_here (List.getElem?_set_self inside)

/-- `RedisThread` goes on to pop. -/
theorem awaited_of_drains (here : s.threads[0]? = some (f :: rest)) (drains : g.drains = true) :
    Awaited ⟨m, s.threads.set 0 [g]⟩ :=
  Or.inr (Or.inr (Or.inl ⟨g, top_set_self here, drains⟩))

end Step

/-- A step of `RedisThread`. -/
theorem Inv.redis_step {s : Conf Frame Shared} {h : Served} (inv : Inv s h) {f : Frame}
    {rest : List Frame} (here : s.threads[0]? = some (f :: rest)) {c : RedisJob} {r : f.act.α}
    {m : Shared} (done : exec f.act.op c s.mem = some (r, m)) :
    Inv ⟨m, s.threads.set 0 (f.act.next r ++ rest)⟩ (Served.note 0 f rest r h) := by
  obtain ⟨g, first, redis⟩ := inv.placed.redis
  rw [first] at here
  cases here
  have runs := inv.runs
  have order := inv.order
  cases f with
  | testExit =>
      cases done
      simp only [Frame.act, runs]
      exact ⟨inv.placed.redis_next first rfl, runs, inv.awaited.aside first rfl nofun, order⟩
  | wait =>
      unfold exec at done
      dsimp only [Frame.act] at done
      split at done
      · cases done
        exact ⟨inv.placed.redis_next first rfl, runs, awaited_of_drains first rfl, order⟩
      · cases done
  | testExitAgain =>
      cases done
      simp only [Frame.act, runs]
      exact ⟨inv.placed.redis_next first rfl, runs, awaited_of_drains first rfl, order⟩
  | pop =>
      cases done
      cases queue : s.mem.redisQ with
      | nil =>
          rw [queue] at order
          simp only [Frame.act, List.head?_nil]
          refine ⟨inv.placed.redis_next first rfl, runs, Or.inl rfl, order⟩
      | cons job jobs =>
          rw [queue] at order
          simp only [Frame.act, List.head?_cons]
          refine ⟨inv.placed.redis_next first rfl, runs, awaited_of_drains first rfl, ?_⟩
          show h.pushed = h.popped ++ [job] ++ jobs
          rw [List.append_assoc, order]
          rfl
  | complete job =>
      cases done
      exact ⟨inv.placed.redis_next first rfl, runs, awaited_of_drains first rfl, order⟩
  | _ => cases redis

/-- A step of a worker. -/
theorem Inv.worker_step {s : Conf Frame Shared} {h : Served} (inv : Inv s h) {t : Nat} {f : Frame}
    {rest : List Frame} (here : s.threads[t + 1]? = some (f :: rest)) (fits : PushFits s (t + 1))
    {c : RedisJob} {r : f.act.α} {m : Shared} (done : exec f.act.op c s.mem = some (r, m)) :
    Inv ⟨m, s.threads.set (t + 1) (f.act.next r ++ rest)⟩ (Served.note (t + 1) f rest r h) := by
  have worker := inv.placed.workers t _ here
  cases worker with
  | idle =>
      cases done
      exact ⟨inv.placed.worker_next here (.push c), inv.runs, inv.awaited.aside here rfl nofun,
        inv.order⟩
  | push job =>
      cases done
      have room : pushBounded redisCapacity s.mem.redisQ job = s.mem.redisQ ++ [job] :=
        if_pos (fits (by rw [Conf.top_of_here here]; rfl))
      refine ⟨inv.placed.worker_next here .setEvent, inv.runs, ?_, ?_⟩
      · exact Or.inr (Or.inr (Or.inr ⟨t + 1, top_set_self here⟩))
      · show h.pushed ++ [job] = h.popped ++ pushBounded redisCapacity s.mem.redisQ job
        rw [room, inv.order, List.append_assoc]
  | setEvent =>
      cases done
      exact ⟨inv.placed.worker_next here .idle, inv.runs, Or.inr (Or.inl rfl), inv.order⟩

theorem Inv.step {p q : Conf Frame Shared × Served} {t : Nat} {c : RedisJob}
    (inv : Inv p.1 p.2) (fits : PushFits p.1 t)
    (step : loginJobs.noted Served.note p t c = some q) : Inv q.1 q.2 := by
  obtain ⟨f, rest, r, m, here, done, rfl⟩ := Machine.noted_cases step
  cases t with
  | zero => exact inv.redis_step here done
  | succ t => exact inv.worker_step here fits done

theorem inv_boot (workers : Nat) : Inv (boot workers) ⟨[], []⟩ := by
  refine ⟨⟨⟨.testExit, rfl, rfl⟩, fun t stack there => ?_⟩, rfl, Or.inl rfl, rfl⟩
  obtain rfl := List.eq_of_mem_replicate (List.mem_of_getElem? there)
  exact .idle

/-- **No login job is stranded.**  Whenever `RedisThread` waits for an event
that is not signalled and nobody is about to signal it, nothing is queued; and
jobs are popped once, in the order they were pushed. -/
theorem no_stranded_job {workers : Nat} {s : Conf Frame Shared} {h : Served}
    (run : loginJobs.NotedSteps Served.note (fun s t _ => PushFits s t)
      (boot workers, ⟨[], []⟩) (s, h)) :
    (s.top 0 = some .wait → s.mem.redis_event = false → (∀ t, s.top t ≠ some .setEvent) →
      s.mem.redisQ = []) ∧ h.pushed = h.popped ++ s.mem.redisQ := by
  have inv : Inv s h := run.invariant (inv_boot workers) fun _ _ _ _ inv fits step =>
    inv.step fits step
  refine ⟨?_, inv.order⟩
  intro waits unsignalled nobody
  rcases inv.awaited with none | signalled | ⟨f, there, drains⟩ | ⟨t, there⟩
  · exact none
  · rw [unsignalled] at signalled
    cases signalled
  · rw [waits] at there
    cases there
    cases drains
  · exact absurd there (nobody t)

/-- A worker pushes and announces two jobs, and `RedisThread` pops them and waits
again. -/
def twoJobs : List (Nat × RedisJob) :=
  List.replicate 3 (1, (7, 0)) ++ List.replicate 3 (1, (8, 1)) ++ List.replicate 9 (0, (7, 0))

/-- Two jobs are popped in the order they were pushed, and none is left when
`RedisThread` waits. -/
theorem no_stranded_job_two : ∃ s h,
    loginJobs.NotedSteps Served.note (fun s t _ => PushFits s t) (boot 1, ⟨[], []⟩) (s, h) ∧
      s.threads = [[.wait], [.worker]] ∧ h.pushed = [(7, 0), (8, 1)] ∧ h.popped = h.pushed ∧
      s.mem.redisQ = [] := by
  have reached : (loginJobs.runNoted Served.note (fun s t _ => PushFits s t) twoJobs
      (boot 1, ⟨[], []⟩)).map (fun q => (q.1.threads, q.1.mem.redis_event, q.2.pushed)) =
        some ([[.wait], [.worker]], false, [(7, 0), (8, 1)]) := by decide +kernel
  obtain ⟨⟨s, h⟩, run, found⟩ := Option.map_eq_some_iff.mp reached
  simp only [Prod.mk.injEq] at found
  obtain ⟨threads, unsignalled, pushed⟩ := found
  have steps := Machine.NotedSteps.of_run run
  have top (t : Nat) : s.top t = [Frame.wait, .worker][t]? := by
    rw [Conf.top, threads]
    rcases t with - | - | t <;> rfl
  have quiet (t : Nat) : s.top t ≠ some .setEvent := by
    rw [top t]
    rcases t with - | - | t <;> intro busy <;> cases busy
  obtain ⟨empty, inOrder⟩ := no_stranded_job steps
  have none := empty (top 0) unsignalled quiet
  rw [none, List.append_nil] at inOrder
  exact ⟨s, h, steps, threads, pushed, inOrder.symm, none⟩

end LoginJobs

end ChattingServer
