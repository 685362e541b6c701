import ChattingServer.SlotAccounting

/-!
# What the places of the session layer rely on

Callers hold the slot that their callees work on (`Frame.asks`), and each place
takes something for granted about its slot (`Frame.Sound`).  Only who has the
slot in hand, and `DisConnect`, change what others take for granted.
-/

namespace ChattingServer

variable {n : Nat}

/-! ## Callers that hold the slot -/

/-- The slot a frame works on because its caller holds it. -/
def Frame.asks : Frame n → Option (Fin n)
  | .postRecv _ i .worker => some i
  | .disConnect _ i => some i
  | .sendPacket _ i _ => some i
  | .postSend _ i => some i
  | .sendComplete _ i => some i
  | .recvComplete _ i => some i
  | .alloc (.frame i) => some i
  | .setRef _ (.frame i) => some i
  | _ => none

/-- The frame takes back its own hold on the slot in the end. -/
def Frame.anchors (f : Frame n) (i : Fin n) : Prop :=
  f = .workerThread (.dec i) ∨ f = .sessionUnLock i

theorem Frame.holds_of_anchors {f : Frame n} {i : Fin n} (anchors : f.anchors i) :
    0 < f.holds i := by
  rcases anchors with rfl | rfl
  · exact (share_self i).ge
  · exact (share_self i).ge

/-- Frames that neither pick up a completion nor have just locked a session
pass on what they ask for. -/
theorem asks_next (f : Frame n) (r : f.act.α) (stray : ¬ f.Stray)
    (idle : f ≠ .workerThread .idle)
    (locked : ∀ i id use, f ≠ .sessionLock .releasedAgain i id use) :
    ∀ g ∈ f.act.next r, g.asks = f.asks ∨ g.asks = none := by
  have goes := f.goes r
  generalize f.act.next r = fs at goes ⊢
  cases goes with
  | recvUndone i who | recvUndoneLast i who =>
      cases who with
      | accept => exact absurd trivial stray
      | worker => simp [Frame.asks]
  | received i k | receivedNone i | sent i k | sentNone i => exact absurd rfl idle
  | lockedSend i id p => exact absurd rfl (locked i id (.send p))
  | lockedDisconnect i id => exact absurd rfl (locked i id .disconnect)
  | setRefResponse q targets => simp [Frame.asks, or_imp, forall_and]
  | alloc use p => cases use <;> simp [Frame.asks]
  | recvLive i who | recvInc i who | recvRefused i who => cases who <;> simp [Frame.asks]
  | _ => simp [Frame.asks]

/-- Every frame that works on a slot has a caller that holds it. -/
def Anchored : List (Frame n) → Prop := Supported Frame.asks Frame.anchors

theorem anchored_next (f : Frame n) (rest : List (Frame n)) (r : f.act.α) (stray : ¬ f.Stray)
    (anchored : Anchored (f :: rest)) : Anchored (f.act.next r ++ rest) := by
  by_cases idle : f = .workerThread .idle
  · subst idle
    obtain ⟨i, isSend, transferred⟩ := r
    have holder : Anchored (.workerThread (.dec i) :: rest) := anchored.2.cons_of_none rfl
    have frames : ∀ g ∈ (Completion.frames ⟨i, isSend, transferred⟩ : List (Frame n)),
        ∀ k, g.asks = some k → ∃ h ∈ (Frame.workerThread (.dec i) :: rest), h.anchors k := by
      intro g member k asked
      have own : k = i := by
        cases isSend <;> cases transferred <;> simp [Completion.frames] at member
        all_goals
          rcases member with rfl | rfl
          all_goals exact (Option.some.inj asked).symm
      exact ⟨_, List.mem_cons_self, Or.inl (by rw [own])⟩
    show Anchored ((Completion.frames _ ++ [.workerThread (.dec i)]) ++ rest)
    rw [List.append_assoc]
    exact supported_append frames holder
  · by_cases locked : ∃ i id use, f = .sessionLock .releasedAgain i id use
    · obtain ⟨i, id, use, rfl⟩ := locked
      cases r with
      | true => exact anchored.2.cons_of_none rfl
      | false =>
          have holder : Anchored (.sessionUnLock i :: rest) := anchored.2.cons_of_none rfl
          cases use with
          | send p =>
              refine ⟨?_, holder⟩
              intro k asked
              cases asked
              exact ⟨_, List.mem_cons_self, Or.inr rfl⟩
          | disconnect =>
              refine ⟨?_, holder⟩
              intro k asked
              cases asked
              exact ⟨_, List.mem_cons_self, Or.inr rfl⟩
    · push Not at locked
      exact supported_of_same (asks_next f r stray idle locked) anchored

/-! ## Plain places -/

/-- The place takes nothing for granted of the session in its slot. -/
def Frame.plain : Frame n → Bool
  | .postRecv _ _ .worker => true
  | .disConnect .cas _ => true
  | .lock _ _ => true
  | .sessionLock .id _ _ _ => true
  | .sendPacket _ _ _ => true
  | .postSend _ _ => true
  | .sendComplete _ _ => true
  | .recvComplete _ _ => true
  | .alloc _ => true
  | .setRef _ _ => true
  | .subRef _ => true
  | .free _ => true
  | .onRecv _ _ => true
  | .loginAddRef _ _ => true
  | .loginPush _ _ => true
  | .redisThread => true
  | .completeLogin _ _ _ => true
  | .caller => true
  | .undefined => true
  | _ => false

/-- A thread goes on to plain places from here. -/
def Frame.routine : Frame n → Bool
  | .postRecv _ _ _ => false
  | .disConnect _ _ => false
  | .sessionLock _ _ _ _ => false
  | .postSend .undo _ => false
  | f => f.plain

theorem plain_next (f : Frame n) (r : f.act.α) (routine : f.routine = true) :
    ∀ g ∈ f.act.next r, g.plain = true := by
  have goes := f.goes r
  generalize f.act.next r = fs at goes ⊢
  cases goes with
  | setRefResponse p targets => simp [Frame.plain, or_imp, forall_and]
  | recvUndone i who | recvUndoneLast i who => cases routine
  | _ => simp [Frame.plain, Frame.routine] at routine ⊢

/-! ## What a place may take for granted -/

/-- What the source takes for granted at a place. -/
def Frame.Sound (m : Shared n) : Frame n → Prop
  | .acceptThread (.nextID i _) => (m.slot i).isReleased = false
  | .acceptThread (.setID i _ _) => (m.slot i).isReleased = false
  | .acceptThread (.setIndex i _) => (m.slot i).isReleased = false
  | .acceptThread (.setSock i _) => (m.slot i).isReleased = false ∧ (m.slot i).index = i
  | .acceptThread (.count i) => (m.slot i).isReleased = false ∧ (m.slot i).index = i
  | .acceptThread (.loadID i) => (m.slot i).isReleased = false ∧ (m.slot i).index = i
  | .acceptThread (.join i _) => (m.slot i).isReleased = false ∧ (m.slot i).index = i
  | .postRecv .check i .accept => (m.slot i).isReleased = false ∧ (m.slot i).index = i
  | .postRecv .inc i .accept => (m.slot i).isReleased = false ∧ (m.slot i).index = i
  | .postRecv .undo _ .accept => False
  | .workerThread (.check i) => (m.slot i).isReleased = true ∧ (m.slot i).index = i
  | .releaseSession .loadID i => (m.slot i).isReleased = true ∧ (m.slot i).index = i
  | .releaseSession (.leave _) i => (m.slot i).isReleased = true ∧ (m.slot i).index = i
  | .releaseSession .drainSend i => (m.slot i).isReleased = true ∧ (m.slot i).index = i
  | .releaseSession .drainComplete i => (m.slot i).isReleased = true ∧ (m.slot i).index = i
  | .releaseSession .loadIndex i => (m.slot i).isReleased = true ∧ (m.slot i).index = i
  | .releaseSession (.initSock index) i => (m.slot i).isReleased = true ∧ index = i
  | .releaseSession (.initID index) i => (m.slot i).isReleased = true ∧ index = i
  | .releaseSession (.initIndex index) i => (m.slot i).isReleased = true ∧ index = i
  | .releaseSession (.initSendFlag index) i => (m.slot i).isReleased = true ∧ index = i
  | .releaseSession (.initSendCount index) i => (m.slot i).isReleased = true ∧ index = i
  | .releaseSession (.initDrainSend index) i => (m.slot i).isReleased = true ∧ index = i
  | .releaseSession (.initDrainComplete index) i => (m.slot i).isReleased = true ∧ index = i
  | .releaseSession (.initReleased index) i => (m.slot i).isReleased = true ∧ index = i
  | .releaseSession (.initIo index) i => (m.slot i).isReleased = false ∧ index = i
  | .releaseSession (.push index) i => (m.slot i).isReleased = false ∧ index = i
  | .sessionLock .released i id _ => (m.slot i).sessionID = id
  | .sessionLock .idAgain i id _ => (m.slot i).sessionID = id
  | .sessionLock .releasedAgain i id _ => (m.slot i).sessionID = id
  | .sessionLock .failAgain _ _ _ => False
  | _ => True

theorem sound_of_plain {m : Shared n} {f : Frame n} (plain : f.plain = true) : f.Sound m := by
  cases f with
  | acceptThread pc => cases plain
  | postRecv pc i who =>
      cases who with
      | accept => cases pc <;> cases plain
      | worker => cases pc <;> trivial
  | releaseSession pc i => cases plain
  | sessionLock pc i id use =>
      cases pc with
      | id => trivial
      | _ => cases plain
  | workerThread pc => cases plain
  | _ => trivial

/-- What a frame relies on stays so while its slot does. -/
theorem Frame.Sound.of_same {m m' : Shared n} {f : Frame n} (sound : f.Sound m)
    (marks : ∀ i, 0 < f.token i →
      (m'.slot i).isReleased = (m.slot i).isReleased ∧ (m'.slot i).index = (m.slot i).index)
    (names : ∀ i, 0 < f.holds i → (m'.slot i).sessionID = (m.slot i).sessionID) :
    f.Sound m' := by
  have one (i : Fin n) : 0 < share i i := (share_self i).ge
  cases f with
  | acceptThread pc =>
      cases pc <;> first | trivial | simp_all [Frame.Sound]
  | postRecv pc i who =>
      cases pc <;> cases who <;> first | trivial | simp_all [Frame.Sound]
  | releaseSession pc i =>
      cases pc <;> first | trivial | exact sound | simp_all [Frame.Sound]
  | sessionLock pc i id use =>
      have same := names i (one i)
      cases pc <;> first | trivial | exact same.trans sound
  | workerThread pc =>
      cases pc <;> first | trivial | simp_all [Frame.Sound]
  | _ => trivial

/-- The operation changes `isReleased` or `index` of slot `i`. -/
def Op.marks (i : Fin n) : {α : Type} → Op n α → Bool
  | _, .session j .casReleased => j = i
  | _, .session j .clearReleased => j = i
  | _, .session j (.storeIndex _) => j = i
  | _, _ => false

/-- The operation changes the ID of slot `i`. -/
def Op.names (i : Fin n) : {α : Type} → Op n α → Bool
  | _, .session j (.storeID _) => j = i
  | _, _ => false

theorem SlotStep.marks {i : Fin n} {s s' : Session} {α : Type} {op : Op n α} {r : α}
    (step : SlotStep i s op r s') (none : op.marks i = false) :
    s'.isReleased = s.isReleased ∧ s'.index = s.index := by
  cases step with
  | session op => cases op <;> simp_all [Op.marks, SessionOp.exec]
  | _ => exact ⟨rfl, rfl⟩

theorem SlotStep.names {i : Fin n} {s s' : Session} {α : Type} {op : Op n α} {r : α}
    (step : SlotStep i s op r s') (none : op.names i = false) : s'.sessionID = s.sessionID := by
  cases step with
  | session op => cases op <;> simp_all [Op.names, SessionOp.exec]
  | _ => rfl

theorem Op.marks_of_aside {i : Fin n} {α : Type} {op : Op n α} (aside : op.aside = true) :
    op.marks i = false := by
  cases op with
  | session j op => cases op <;> first | rfl | cases aside
  | _ => rfl

theorem Op.names_of_aside {i : Fin n} {α : Type} {op : Op n α} (aside : op.aside = true) :
    op.names i = false := by
  cases op with
  | session j op => cases op <;> first | rfl | cases aside
  | _ => rfl

/-- Only who has the slot in hand changes its index, or its `isReleased` but
for `DisConnect`. -/
theorem token_of_marks {i : Fin n} {f : Frame n} (marks : f.act.op.marks i = true) :
    f.token i = 1 ∨ f = .disConnect .cas i := by
  by_cases outside : f.outside = true
  · rw [Op.marks_of_aside (Frame.aside_of_outside outside)] at marks
    cases marks
  cases f with
  | acceptThread pc =>
      cases pc with
      | setIndex j sock => exact Or.inl (if_pos (of_decide_eq_true marks))
      | _ => cases marks
  | disConnect pc j =>
      cases pc with
      | cas =>
          obtain rfl : j = i := of_decide_eq_true marks
          exact Or.inr rfl
      | _ => cases marks
  | releaseSession pc j =>
      cases pc with
      | initIndex index => exact Or.inl (if_pos (of_decide_eq_true marks))
      | initReleased index => exact Or.inl (if_pos (of_decide_eq_true marks))
      | _ => cases marks
  | undefined => cases marks
  | _ => exact absurd rfl outside

theorem token_of_names {i : Fin n} {f : Frame n} (names : f.act.op.names i = true) :
    f.token i = 1 := by
  by_cases outside : f.outside = true
  · rw [Op.names_of_aside (Frame.aside_of_outside outside)] at names
    cases names
  cases f with
  | acceptThread pc =>
      cases pc with
      | setID j sock id => exact if_pos (of_decide_eq_true names)
      | _ => cases names
  | releaseSession pc j =>
      cases pc with
      | initID index => exact if_pos (of_decide_eq_true names)
      | _ => cases names
  | disConnect pc j => cases pc <;> cases names
  | undefined => cases names
  | _ => exact absurd rfl outside

/-- A `ReleaseSession` pushes the index of its own slot. -/
theorem pushedIndex_of_sound {m : Shared n} {f : Frame n} (sound : f.Sound m) (i : Nat) :
    f.act.op.pushedIndex i = f.act.op.returned i := by
  by_cases outside : f.outside = true
  · have aside := Frame.aside_of_outside outside
    rw [Op.pushedIndex_of_aside aside, Op.returned_of_aside aside]
  cases f with
  | releaseSession pc j =>
      cases pc with
      | push index =>
          obtain ⟨-, rfl⟩ := sound
          rfl
      | _ => rfl
  | acceptThread pc => cases pc <;> rfl
  | disConnect pc j => cases pc <;> rfl
  | undefined => rfl
  | _ => exact absurd rfl outside

end ChattingServer
