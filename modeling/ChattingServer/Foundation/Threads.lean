import Mathlib.Algebra.Order.BigOperators.Group.List
import Mathlib.Algebra.Order.Ring.Nat
import Mathlib.Logic.Relation

/-!
# Threads over a shared memory

A thread is a stack of frames, the running one on top.  A frame performs one
atomic operation and is replaced by the frames it goes on with, callees above
their caller.  `Machine.step` lets one thread perform its operation; a run is
any sequence of such steps, so any interleaving.

* `Machine.step_cases` says what one step is.
* `tally` adds a weight over all frames of all stacks.  A step changes a tally
  by the weights of the frames it puts in place of the one it takes
  (`tally_step`), so an accounting invariant is checked frame by frame.
* `Supported` says of a stack that callers keep what their callees ask for.
* `Forall` is a property of every stack, `Machine.Steps` a run all of whose
  steps satisfy a guard, `Steps.invariant` its induction.
* `Machine.Solo` is the run of one thread with nobody else about.
* `Machine.NotedSteps` is a run beside which an observer keeps a record, which
  no thread reads: every run has one (`Steps.noted`).  If every step is paid for,
  so is the run (`NotedSteps.paid`).
-/

namespace ChattingServer

/-- One for the thing itself, for weights. -/
def share {α : Type} [DecidableEq α] (x y : α) : Nat := if x = y then 1 else 0

theorem share_self {α : Type} [DecidableEq α] (x : α) : share x x = 1 := if_pos rfl

theorem share_of_ne {α : Type} [DecidableEq α] {x y : α} (other : x ≠ y) : share x y = 0 :=
  if_neg other

theorem eq_of_share_pos {α : Type} [DecidableEq α] {x y : α} (pos : 0 < share x y) : x = y := by
  by_contra other
  rw [share_of_ne other] at pos
  cases pos

theorem count_cons_share {α : Type} [DecidableEq α] (x y : α) (xs : List α) :
    (x :: xs).count y = xs.count y + share x y := by
  rw [List.count_cons, share]
  simp only [beq_iff_eq]

theorem count_singleton_share {α : Type} [DecidableEq α] (x y : α) : [x].count y = share x y := by
  rw [count_cons_share, List.count_nil, Nat.zero_add]

theorem count_tail_share {α : Type} [DecidableEq α] (queue : List α) (x : α) :
    queue.tail.count x + (queue.head?.elim 0 (share · x)) = queue.count x := by
  cases queue with
  | nil => rfl
  | cons y rest => exact (count_cons_share y x rest).symm

/-- One operation, and the frames to go on with, given its result. -/
structure Act (Op : Type → Type 1) (Frame : Type) : Type 1 where
  {α : Type}
  op : Op α
  next : α → List Frame

/-- What frames do, and what operations do to the memory.  An operation has
outcomes the threads do not determine; a `Choice` fixes one. -/
structure Machine (Op : Type → Type 1) (Frame Choice Mem : Type) : Type 1 where
  act : Frame → Act Op Frame
  exec : {α : Type} → Op α → Choice → Mem → Option (α × Mem)

/-- A memory and the threads working on it. -/
structure Conf (Frame Mem : Type) where
  mem : Mem
  threads : List (List Frame)

namespace Conf

variable {Frame Mem : Type}

/-- The running frame of a thread. -/
def top (s : Conf Frame Mem) (t : Nat) : Option Frame := s.threads[t]?.bind List.head?

theorem top_of_here {s : Conf Frame Mem} {t : Nat} {f : Frame} {rest : List Frame}
    (here : s.threads[t]? = some (f :: rest)) : s.top t = some f := by
  rw [top, here]
  rfl

theorem top_cases {s : Conf Frame Mem} {t : Nat} {f : Frame} (here : s.top t = some f) :
    ∃ rest, s.threads[t]? = some (f :: rest) := by
  obtain ⟨stack, found, head⟩ := Option.bind_eq_some_iff.mp here
  obtain ⟨rest, rfl⟩ := List.head?_eq_some_iff.mp head
  exact ⟨rest, found⟩

/-- The running frames of the other threads stay. -/
theorem top_set_of_ne {mem mem' : Mem} {threads : List (List Frame)} {stack : List Frame}
    {t k : Nat} (other : t ≠ k) :
    (Conf.mk mem' (threads.set t stack)).top k = (Conf.mk mem threads).top k := by
  unfold top
  dsimp only
  rw [List.getElem?_set_ne other]

/-- A weight added over all frames of all stacks. -/
def tally (w : Frame → Nat) (s : Conf Frame Mem) : Nat :=
  (s.threads.map fun stack => (stack.map w).sum).sum

/-- Every stack has the property. -/
def Forall (P : List Frame → Prop) (s : Conf Frame Mem) : Prop :=
  ∀ stack ∈ s.threads, P stack

variable {s : Conf Frame Mem} {w v : Frame → Nat}

theorem tally_add : s.tally (fun f => w f + v f) = s.tally w + s.tally v := by
  unfold tally
  rw [← List.sum_map_add]
  simp only [← List.sum_map_add]

theorem tally_le (le : ∀ f, w f ≤ v f) : s.tally w ≤ s.tally v := by
  apply List.sum_le_sum
  intro stack _
  apply List.sum_le_sum
  intro f _
  exact le f

/-- Some frame weighs something when all of them together do. -/
theorem exists_of_tally_pos (pos : 0 < s.tally w) :
    ∃ stack ∈ s.threads, ∃ f ∈ stack, 0 < w f := by
  by_contra none
  have zero : s.tally w = 0 := by
    apply List.sum_eq_zero
    intro k member
    obtain ⟨stack, inside, rfl⟩ := List.mem_map.mp member
    apply List.sum_eq_zero
    intro k' member'
    obtain ⟨f, here, rfl⟩ := List.mem_map.mp member'
    have not : ¬ 0 < w f := fun weighs => none ⟨stack, inside, f, here, weighs⟩
    omega
  omega

theorem tally_eq_zero (light : ∀ stack ∈ s.threads, ∀ f ∈ stack, w f = 0) : s.tally w = 0 := by
  by_contra weighs
  obtain ⟨stack, member, f, inside, pos⟩ := exists_of_tally_pos (Nat.pos_of_ne_zero weighs)
  rw [light stack member f inside] at pos
  exact Nat.lt_irrefl 0 pos

/-- A frame weighs no more than all of them. -/
theorem le_tally {stack : List Frame} (member : stack ∈ s.threads) {f : Frame}
    (inside : f ∈ stack) : w f ≤ s.tally w := by
  have part : w f ≤ (stack.map w).sum :=
    List.single_le_sum (fun _ _ => Nat.zero_le _) _ (List.mem_map_of_mem inside)
  have whole : (stack.map w).sum ≤ s.tally w :=
    List.single_le_sum (fun _ _ => Nat.zero_le _) _ (List.mem_map_of_mem member)
  exact part.trans whole

end Conf

/-! ## What frames find below them -/

section Supported

variable {Frame κ : Type} {asks : Frame → Option κ} {offers : Frame → κ → Prop}

/-- Whatever a frame of the stack asks for, some frame below it offers. -/
def Supported (asks : Frame → Option κ) (offers : Frame → κ → Prop) : List Frame → Prop
  | [] => True
  | f :: rest => (∀ k, asks f = some k → ∃ g ∈ rest, offers g k) ∧ Supported asks offers rest

theorem supported_nil : Supported asks offers [] := trivial

/-- A frame that asks for nothing goes on any stack. -/
theorem Supported.cons_of_none {f : Frame} {rest : List Frame}
    (supported : Supported asks offers rest) (none : asks f = none) :
    Supported asks offers (f :: rest) := by
  refine ⟨?_, supported⟩
  intro k asked
  rw [none] at asked
  cases asked

theorem supported_append {fs rest : List Frame}
    (below : ∀ f ∈ fs, ∀ k, asks f = some k → ∃ g ∈ rest, offers g k)
    (supported : Supported asks offers rest) : Supported asks offers (fs ++ rest) := by
  induction fs with
  | nil => exact supported
  | cons f fs ih =>
      refine ⟨?_, ih fun g member => below g (List.mem_cons_of_mem f member)⟩
      intro k asked
      obtain ⟨g, inside, offered⟩ := below f List.mem_cons_self k asked
      exact ⟨g, List.mem_append_right fs inside, offered⟩

/-- A frame may pass on what it asks for. -/
theorem supported_of_same {f : Frame} {fs rest : List Frame}
    (same : ∀ g ∈ fs, asks g = asks f ∨ asks g = none)
    (supported : Supported asks offers (f :: rest)) : Supported asks offers (fs ++ rest) := by
  refine supported_append ?_ supported.2
  intro g member k asked
  rcases same g member with kept | none
  · exact supported.1 k (kept ▸ asked)
  · rw [none] at asked
    cases asked

/-- What a frame of the stack asks for is offered in the stack. -/
theorem Supported.exists_offer {stack : List Frame} (supported : Supported asks offers stack)
    {f : Frame} (member : f ∈ stack) {k : κ} (asked : asks f = some k) :
    ∃ g ∈ stack, offers g k := by
  induction stack with
  | nil => cases member
  | cons first rest ih =>
      rcases List.mem_cons.mp member with rfl | inside
      · obtain ⟨g, below, offered⟩ := supported.1 k asked
        exact ⟨g, List.mem_cons_of_mem f below, offered⟩
      · obtain ⟨g, below, offered⟩ := ih supported.2 inside
        exact ⟨g, List.mem_cons_of_mem first below, offered⟩

end Supported

namespace Machine

variable {Op : Type → Type 1} {Frame Choice Mem : Type} (M : Machine Op Frame Choice Mem)

/-- Thread `t` performs the operation of its running frame. -/
def step (s : Conf Frame Mem) (t : Nat) (c : Choice) : Option (Conf Frame Mem) :=
  match s.threads[t]? with
  | some (f :: rest) =>
      (M.exec (M.act f).op c s.mem).map fun (r, m) =>
        ⟨m, s.threads.set t ((M.act f).next r ++ rest)⟩
  | _ => none

/-- A given list of steps, one after another. -/
def run : List (Nat × Choice) → Conf Frame Mem → Option (Conf Frame Mem)
  | [], s => some s
  | (t, c) :: rest, s => (M.step s t c).bind (run rest)

variable {M} {s s' : Conf Frame Mem} {t : Nat} {c : Choice}

/-- What a step is. -/
theorem step_cases (h : M.step s t c = some s') :
    ∃ f rest r m, s.threads[t]? = some (f :: rest) ∧
      M.exec (M.act f).op c s.mem = some (r, m) ∧
      s' = ⟨m, s.threads.set t ((M.act f).next r ++ rest)⟩ := by
  unfold step at h
  split at h
  · rename_i f rest stack
    obtain ⟨⟨r, m⟩, done, rfl⟩ := Option.map_eq_some_iff.mp h
    exact ⟨f, rest, r, m, stack, done, rfl⟩
  · cases h

/-- Replacing one stack changes a tally by the difference of the two. -/
theorem tally_set (w : Frame → Nat) (mem : Mem) {threads : List (List Frame)} {stack : List Frame}
    (here : threads[t]? = some stack) (stack' : List Frame) :
    (Conf.mk mem (threads.set t stack')).tally w + (stack.map w).sum =
      (Conf.mk mem threads).tally w + (stack'.map w).sum := by
  unfold Conf.tally
  dsimp only
  induction threads generalizing t with
  | nil => cases here
  | cons first threads ih =>
      cases t with
      | zero =>
          cases here
          rw [List.set_cons_zero, List.map_cons, List.map_cons, List.sum_cons, List.sum_cons]
          omega
      | succ t =>
          have tail := ih here
          rw [List.set_cons_succ, List.map_cons, List.map_cons, List.sum_cons, List.sum_cons]
          omega

/-- A step exchanges the weight of the frame it takes for the weights of the
frames it puts in its place. -/
theorem tally_step (w : Frame → Nat) {f : Frame} {rest : List Frame}
    (here : s.threads[t]? = some (f :: rest)) (fs : List Frame) (m : Mem) :
    (Conf.mk m (s.threads.set t (fs ++ rest))).tally w + w f = s.tally w + (fs.map w).sum := by
  have set := tally_set w m here (fs ++ rest)
  rw [List.map_cons, List.sum_cons, List.map_append, List.sum_append] at set
  have same : (Conf.mk m s.threads).tally w = s.tally w := rfl
  omega

/-- A frame and one that stays beside it weigh no more than all of them. -/
theorem add_le_tally (w : Frame → Nat) {f g : Frame} {rest stack : List Frame}
    (here : s.threads[t]? = some (f :: rest)) (member : stack ∈ s.threads.set t rest)
    (inside : g ∈ stack) : w f + w g ≤ s.tally w := by
  have left := tally_step w here [] s.mem
  have part := Conf.le_tally (s := ⟨s.mem, s.threads.set t rest⟩) (w := w) member inside
  rw [List.nil_append, List.map_nil, List.sum_nil] at left
  omega

/-- Frames of two threads weigh no more than all of them. -/
theorem add_le_tally_of_ne (w : Frame → Nat) {k : Nat} {stack stack' : List Frame}
    (here : s.threads[t]? = some stack) (there : s.threads[k]? = some stack') (other : t ≠ k)
    {f g : Frame} (inside : f ∈ stack) (inside' : g ∈ stack') : w f + w g ≤ s.tally w := by
  have left := tally_set w s.mem here []
  have there' : (s.threads.set t [])[k]? = some stack' := by
    rw [List.getElem?_set_ne other]
    exact there
  have part := Conf.le_tally (s := ⟨s.mem, s.threads.set t []⟩) (w := w)
    (List.mem_of_getElem? there') inside'
  have own : w f ≤ (stack.map w).sum :=
    List.single_le_sum (fun _ _ => Nat.zero_le _) _ (List.mem_map_of_mem inside)
  have same : (Conf.mk s.mem s.threads).tally w = s.tally w := rfl
  rw [List.map_nil, List.sum_nil] at left
  omega

/-- A frame that stays was there before the step. -/
theorem exists_of_stayed {f g : Frame} {rest stack : List Frame}
    (here : s.threads[t]? = some (f :: rest)) (member : stack ∈ s.threads.set t rest)
    (inside : g ∈ stack) : ∃ stack' ∈ s.threads, g ∈ stack' := by
  rcases List.mem_or_eq_of_mem_set member with old | rfl
  · exact ⟨stack, old, inside⟩
  · exact ⟨f :: stack, List.mem_of_getElem? here, List.mem_cons_of_mem f inside⟩

/-- The frames after a step are new, or have stayed. -/
theorem forall_frames_step {P : Frame → Prop} {f : Frame} {rest fs : List Frame}
    (here : s.threads[t]? = some (f :: rest)) (new : ∀ g ∈ fs, P g)
    (stayed : ∀ stack ∈ s.threads.set t rest, ∀ g ∈ stack, P g) :
    ∀ stack ∈ s.threads.set t (fs ++ rest), ∀ g ∈ stack, P g := by
  intro stack member g inside
  obtain ⟨k, there⟩ := List.mem_iff_getElem?.mp member
  have bound : t < s.threads.length := (List.getElem?_eq_some_iff.mp here).1
  rcases eq_or_ne t k with rfl | other
  · rw [List.getElem?_set_self bound] at there
    cases there
    rcases List.mem_append.mp inside with first | below
    · exact new g first
    · exact stayed rest (List.mem_of_getElem? (List.getElem?_set_self bound)) g below
  · rw [List.getElem?_set_ne other] at there
    refine stayed stack (List.mem_of_getElem? (i := k) ?_) g inside
    rw [List.getElem?_set_ne other]
    exact there

/-- A step keeps a property of every stack if it keeps it of its own. -/
theorem forall_step {P : List Frame → Prop} {f : Frame} {rest fs : List Frame} {m : Mem}
    (all : s.Forall P) (here : s.threads[t]? = some (f :: rest))
    (keeps : P (f :: rest) → P (fs ++ rest)) :
    (Conf.mk m (s.threads.set t (fs ++ rest))).Forall P := by
  intro stack member
  rcases List.mem_or_eq_of_mem_set member with old | rfl
  · exact all stack old
  · exact keeps (all _ (List.mem_of_getElem? here))

variable (M)

/-- One step of some thread that the guard admits. -/
def StepIf (guard : Conf Frame Mem → Nat → Choice → Prop) (s s' : Conf Frame Mem) : Prop :=
  ∃ t c, guard s t c ∧ M.step s t c = some s'

/-- A run all of whose steps the guard admits. -/
def Steps (guard : Conf Frame Mem → Nat → Choice → Prop) :
    Conf Frame Mem → Conf Frame Mem → Prop :=
  Relation.ReflTransGen (M.StepIf guard)

variable {M}

/-- What holds at first and survives every admitted step holds after a run. -/
theorem Steps.invariant {guard : Conf Frame Mem → Nat → Choice → Prop}
    {I : Conf Frame Mem → Prop} (run : M.Steps guard s s') (first : I s)
    (keeps : ∀ s t c s', I s → guard s t c → M.step s t c = some s' → I s') : I s' := by
  induction run with
  | refl => exact first
  | tail _ last ih =>
      obtain ⟨t, c, admitted, step⟩ := last
      exact keeps _ t c _ ih admitted step

/-- A list of steps that can be taken is a run. -/
theorem Steps.of_run {steps : List (Nat × Choice)} (taken : M.run steps s = some s') :
    M.Steps (fun _ _ _ => True) s s' := by
  induction steps generalizing s with
  | nil =>
      cases taken
      exact .refl
  | cons first rest ih =>
      obtain ⟨next, step, rest'⟩ := Option.bind_eq_some_iff.mp taken
      exact .head ⟨first.1, first.2, trivial, step⟩ (ih rest')

/-- A given list of steps that the guard admits, one after another. -/
def runIf (M : Machine Op Frame Choice Mem) (guard : Conf Frame Mem → Nat → Choice → Prop)
    [∀ s t c, Decidable (guard s t c)] :
    List (Nat × Choice) → Conf Frame Mem → Option (Conf Frame Mem)
  | [], s => some s
  | (t, c) :: rest, s => if guard s t c then (M.step s t c).bind (runIf M guard rest) else none

theorem Steps.of_runIf {guard : Conf Frame Mem → Nat → Choice → Prop}
    [∀ s t c, Decidable (guard s t c)] {steps : List (Nat × Choice)}
    (taken : M.runIf guard steps s = some s') : M.Steps guard s s' := by
  induction steps generalizing s with
  | nil =>
      cases taken
      exact .refl
  | cons first rest ih =>
      unfold runIf at taken
      split at taken
      · rename_i admitted
        obtain ⟨next, step, rest'⟩ := Option.bind_eq_some_iff.mp taken
        exact .head ⟨first.1, first.2, admitted, step⟩ (ih rest')
      · cases taken

variable (M)

/-- One thread running to its end with nobody else about. -/
inductive Solo : Mem → List Frame → Mem → Prop
  | done (m : Mem) : Solo m [] m
  | step {f : Frame} {rest : List Frame} {c : Choice} {m m₁ m' : Mem} {r : (M.act f).α}
      (first : M.exec (M.act f).op c m = some (r, m₁))
      (others : Solo m₁ ((M.act f).next r ++ rest) m') : Solo m (f :: rest) m'

variable {M}

theorem solo_cons_iff {f : Frame} {a : Act Op Frame} (act : M.act f = a) {rest : List Frame}
    {m m' : Mem} :
    M.Solo m (f :: rest) m' ↔
      ∃ c r m₁, M.exec a.op c m = some (r, m₁) ∧ M.Solo m₁ (a.next r ++ rest) m' := by
  subst act
  constructor
  · intro run
    cases run with
    | step first others => exact ⟨_, _, _, first, others⟩
  · rintro ⟨c, r, m₁, first, others⟩
    exact .step first others

theorem solo_nil_iff {m m' : Mem} : M.Solo m [] m' ↔ m' = m := by
  constructor
  · intro run
    cases run
    rfl
  · rintro rfl
    exact .done _

/-- What a lone thread does first, it does before the rest. -/
theorem Solo.append {fs rest : List Frame} {m m₁ m' : Mem} (first : M.Solo m fs m₁)
    (others : M.Solo m₁ rest m') : M.Solo m (fs ++ rest) m' := by
  induction first with
  | done m => exact others
  | step op _ ih =>
      have later := ih others
      rw [List.append_assoc] at later
      exact .step op later

/-- What a lone thread can do, it can do while the others wait. -/
theorem Steps.of_solo {fs rest : List Frame} {m m' : Mem} {threads : List (List Frame)} {t : Nat}
    (alone : M.Solo m fs m') (here : threads[t]? = some (fs ++ rest)) :
    M.Steps (fun _ _ _ => True) ⟨m, threads⟩ ⟨m', threads.set t rest⟩ := by
  induction alone generalizing threads with
  | done m =>
      obtain ⟨inside, same⟩ := List.getElem?_eq_some_iff.mp here
      have kept : threads.set t threads[t] = threads := List.set_getElem_self inside
      rw [same] at kept
      exact kept.symm ▸ .refl
  | @step f fs c m m₁ m' r op _ ih =>
      have inside : t < threads.length := (List.getElem?_eq_some_iff.mp here).1
      have step : M.step ⟨m, threads⟩ t c =
          some ⟨m₁, threads.set t ((M.act f).next r ++ (fs ++ rest))⟩ := by
        rw [Machine.step]
        simp only [here, List.cons_append, op, Option.map_some]
      have there : (threads.set t ((M.act f).next r ++ (fs ++ rest)))[t]? =
          some ((M.act f).next r ++ fs ++ rest) := by
        rw [List.getElem?_set_self inside, List.append_assoc]
      have later := ih there
      rw [List.set_set] at later
      exact .head ⟨t, c, trivial, step⟩ later

/-! ## Keeping a record -/

section Noted

variable {H : Type} (note : Nat → (f : Frame) → List Frame → (M.act f).α → H → H)

variable (M) in
/-- A step, with what the observer makes of it: of the thread, of its frame with
the frames below, and of the result of the operation. -/
def noted (p : Conf Frame Mem × H) (t : Nat) (c : Choice) : Option (Conf Frame Mem × H) :=
  match p.1.threads[t]? with
  | some (f :: rest) =>
      (M.exec (M.act f).op c p.1.mem).map fun (r, m) =>
        (⟨m, p.1.threads.set t ((M.act f).next r ++ rest)⟩, note t f rest r p.2)
  | _ => none

variable {note} {p q : Conf Frame Mem × H}

theorem noted_cases (h : M.noted note p t c = some q) :
    ∃ f rest r m, p.1.threads[t]? = some (f :: rest) ∧
      M.exec (M.act f).op c p.1.mem = some (r, m) ∧
      q = (⟨m, p.1.threads.set t ((M.act f).next r ++ rest)⟩, note t f rest r p.2) := by
  unfold noted at h
  split at h
  · rename_i f rest stack
    obtain ⟨⟨r, m⟩, done, rfl⟩ := Option.map_eq_some_iff.mp h
    exact ⟨f, rest, r, m, stack, done, rfl⟩
  · cases h

theorem noted_eq {f : Frame} {rest : List Frame} {r : (M.act f).α} {m : Mem}
    (here : s.threads[t]? = some (f :: rest)) (done : M.exec (M.act f).op c s.mem = some (r, m))
    (x : H) : M.noted note (s, x) t c =
      some (⟨m, s.threads.set t ((M.act f).next r ++ rest)⟩, note t f rest r x) := by
  rw [noted]
  simp only [here, done, Option.map_some]

theorem step_of_noted (h : M.noted note p t c = some q) : M.step p.1 t c = some q.1 := by
  obtain ⟨f, rest, r, m, here, done, rfl⟩ := noted_cases h
  rw [step]
  simp only [here, done, Option.map_some]

theorem noted_of_step (h : M.step s t c = some s') (x : H) :
    ∃ y, M.noted note (s, x) t c = some (s', y) := by
  obtain ⟨f, rest, r, m, here, done, rfl⟩ := step_cases h
  exact ⟨note t f rest r x, noted_eq here done x⟩

variable (M note) in
/-- A run all of whose steps the guard admits, with its record. -/
def NotedSteps (guard : Conf Frame Mem → Nat → Choice → Prop) :
    Conf Frame Mem × H → Conf Frame Mem × H → Prop :=
  Relation.ReflTransGen fun p q => ∃ t c, guard p.1 t c ∧ M.noted note p t c = some q

variable {guard : Conf Frame Mem → Nat → Choice → Prop}

theorem NotedSteps.invariant {I : Conf Frame Mem → H → Prop} (run : M.NotedSteps note guard p q)
    (first : I p.1 p.2)
    (keeps : ∀ p t c q, I p.1 p.2 → guard p.1 t c → M.noted note p t c = some q → I q.1 q.2) :
    I q.1 q.2 := by
  induction run with
  | refl => exact first
  | tail _ last ih =>
      obtain ⟨t, c, admitted, step⟩ := last
      exact keeps _ t c _ ih admitted step

/-- Without its record it is a run. -/
theorem NotedSteps.steps (run : M.NotedSteps note guard p q) : M.Steps guard p.1 q.1 := by
  induction run with
  | refl => exact .refl
  | tail _ last ih =>
      obtain ⟨t, c, admitted, step⟩ := last
      exact ih.tail ⟨t, c, admitted, step_of_noted step⟩

/-- Every run can be recorded. -/
theorem Steps.noted (run : M.Steps guard s s') (x : H) :
    ∃ y, M.NotedSteps note guard (s, x) (s', y) := by
  induction run with
  | refl => exact ⟨x, .refl⟩
  | tail _ last ih =>
      obtain ⟨t, c, admitted, step⟩ := last
      obtain ⟨y, before⟩ := ih
      obtain ⟨z, noted⟩ := noted_of_step step y
      exact ⟨z, before.tail ⟨t, c, admitted, noted⟩⟩

variable (M note) in
/-- A given list of steps that the guard admits, with its record. -/
def runNoted (guard : Conf Frame Mem → Nat → Choice → Prop) [∀ s t c, Decidable (guard s t c)] :
    List (Nat × Choice) → Conf Frame Mem × H → Option (Conf Frame Mem × H)
  | [], p => some p
  | (t, c) :: rest, p =>
      if guard p.1 t c then (M.noted note p t c).bind (runNoted guard rest) else none

/-- A lone thread performs one operation. -/
theorem NotedSteps.lone {f : Frame} {rest : List Frame} {m m' : Mem} {r : (M.act f).α} {x : H}
    (done : M.exec (M.act f).op c m = some (r, m')) (admitted : guard ⟨m, [f :: rest]⟩ 0 c)
    (later : M.NotedSteps note guard (⟨m', [(M.act f).next r ++ rest]⟩, note 0 f rest r x) q) :
    M.NotedSteps note guard (⟨m, [f :: rest]⟩, x) q :=
  .head ⟨0, c, admitted, noted_eq rfl done x⟩ later

theorem NotedSteps.of_run [∀ s t c, Decidable (guard s t c)] {steps : List (Nat × Choice)}
    (taken : M.runNoted note guard steps p = some q) : M.NotedSteps note guard p q := by
  induction steps generalizing p with
  | nil =>
      cases taken
      exact .refl
  | cons first rest ih =>
      unfold runNoted at taken
      split at taken
      · rename_i admitted
        obtain ⟨next, step, rest'⟩ := Option.bind_eq_some_iff.mp taken
        exact .head ⟨first.1, first.2, admitted, step⟩ (ih rest')
      · cases taken

/-- **The potential rule.**  If what a step does is paid for by the place that it
leaves, by what the memory holds in store or by what the record takes in, then
so is what a run does. -/
theorem NotedSteps.paid {w : Frame → Nat} {I : Conf Frame Mem → Prop} (store : Mem → Nat)
    (did took : H → Nat) (run : M.NotedSteps note guard p q) (first : I p.1)
    (keeps : ∀ s t c s', I s → guard s t c → M.step s t c = some s' → I s')
    (pays : ∀ s t c f rest r m x, I s → guard s t c → s.threads[t]? = some (f :: rest) →
      M.exec (M.act f).op c s.mem = some (r, m) →
      did (note t f rest r x) + (((M.act f).next r).map w).sum + store m + took x ≤
        did x + w f + store s.mem + took (note t f rest r x)) :
    did q.2 + q.1.tally w + store q.1.mem + took p.2 ≤
      did p.2 + p.1.tally w + store p.1.mem + took q.2 := by
  have both := run.invariant (I := fun s h => I s ∧
    did h + s.tally w + store s.mem + took p.2 ≤
      did p.2 + p.1.tally w + store p.1.mem + took h) ⟨first, Nat.le_refl _⟩ ?_
  · exact both.2
  · intro o t c o' before admitted step
    have kept := keeps o.1 t c o'.1 before.1 admitted (step_of_noted step)
    obtain ⟨f, rest, r, m, here, done, rfl⟩ := noted_cases step
    have tally := tally_step w here ((M.act f).next r) m
    have cost := pays o.1 t c f rest r m o.2 before.1 admitted here done
    have sofar := before.2
    refine ⟨kept, ?_⟩
    dsimp only
    omega

end Noted

end Machine

end ChattingServer
