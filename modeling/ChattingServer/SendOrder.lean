import ChattingServer.SendPipeline

/-!
# What is sent is what was pushed

The step lemmas of `SendPipeline` put together over a run: one send at a time,
batches in the order of the pushes, every packet dropped once and after its
batch.
-/

namespace ChattingServer

variable {n : Nat}

section Step

variable {i : Fin n} {s : Conf (Frame n) (Shared n)} {t : Nat} {c : Choice n} {f : Frame n}
  {rest : List (Frame n)} {h : Sent}

/-- The batches are those of before and, when `WSASend` takes it, the one of
the thread that calls it. -/
theorem Sent.forall_batches_note {P : List PacketPtr → Prop} {r : f.act.α}
    (all : ∀ b ∈ h.batches, P b) (new : f = .postSend .issue i → P (h.wBuf t)) :
    ∀ b ∈ (Sent.note i t f rest r h).batches, P b := by
  unfold note
  split
  case h_4 f r j =>
      split
      · rename_i same
        subst same
        intro b member
        rcases List.mem_append.mp member with old | last
        · exact all b old
        · rw [List.mem_singleton.mp last]
          exact new rfl
      · exact all
  all_goals first | exact all | (split <;> exact all)

/-- The flag of slot `i` and all that is sent under it. -/
structure Piped (i : Fin n) (s : Conf (Frame n) (Shared n)) (h : Sent) : Prop where
  flagged : Flagged i s
  bounded : ∀ b ∈ h.batches, 0 < b.length ∧ b.length ≤ 100
  pipeline : Pipeline i s h

/-- Nobody holds the flag in a thread: a `PostSend` may take it. -/
theorem Pipeline.take (here : s.threads[t]? = some (.postSend .cas i :: rest))
    (pushed : h.pushed = h.batches.flatten ++ (s.mem.slot i).sendBuf)
    (complete : (s.mem.slot i).completeSendBuf = [])
    (completions : h.completions = h.batches.length) (subRefs : h.subRefs = h.batches.flatten)
    {m : Shared n} (done : exec (.session i .casSendFlag) c s.mem = some (true, m)) :
    Pipeline i ⟨m, s.threads.set t (PostSend.loop i 0 ++ rest)⟩
      (Sent.note i t (.postSend .cas i) rest true h) := by
  obtain ⟨-, same⟩ := exec_session done
  have note : Sent.note i t (.postSend .cas i) rest true h =
      { h with wBuf := Function.update h.wBuf t [] } := if_pos rfl
  have buffers : Function.update h.wBuf t [] t = [] := Function.update_self ..
  rw [note]
  refine PostSend.loop_posting (List.getElem?_eq_some_iff.mp here).1 ?_ ?_ (Nat.zero_le _) ?_
    completions subRefs
  · rw [same]
    exact complete.trans buffers.symm
  · exact congrArg List.length buffers
  · show h.pushed = h.batches.flatten ++ Function.update h.wBuf t [] t ++ (m.slot i).sendBuf
    rw [buffers, List.append_nil, same]
    exact pushed

/-- A worker gets the completion of the outstanding send. -/
theorem Pipeline.hand (here : s.threads[t]? = some (.workerThread .idle :: rest))
    {before : List (List PacketPtr)}
    (batches : h.batches = before ++ [(s.mem.slot i).completeSendBuf])
    (count : (s.mem.slot i).sendCount = (s.mem.slot i).completeSendBuf.length)
    (pushed : h.pushed = h.batches.flatten ++ (s.mem.slot i).sendBuf)
    (completions : h.completions = before.length) (subRefs : h.subRefs = before.flatten)
    {transferred : Nat} {m : Shared n}
    (done : exec .completion c s.mem = some (⟨i, true, transferred⟩, m)) :
    Pipeline i ⟨m, s.threads.set t
        ((Frame.workerThread .idle).act.next ⟨i, true, transferred⟩ ++ rest)⟩
      (Sent.note i t (.workerThread .idle) rest ⟨i, true, transferred⟩ h) := by
  have bound : t < s.threads.length := (List.getElem?_eq_some_iff.mp here).1
  have same : ∃ out, m.slot i = { s.mem.slot i with sendOut := out } := by
    obtain ⟨s', completed, rfl⟩ := Shared.complete_cases done
    rcases Session.completed_cases completed with ⟨-, -, rfl⟩ | ⟨impossible, -⟩
    · exact ⟨_, s.mem.slot_setSlot_self ..⟩
    · cases impossible
  obtain ⟨out, same⟩ := same
  have note : Sent.note i t (.workerThread .idle) rest ⟨i, true, transferred⟩ h =
      { h with completions := h.completions + 1 } := if_pos (by simp)
  have place : SendComplete.count.At (m.slot i) := by
    rw [same]
    exact count
  have pushed' : h.pushed = h.batches.flatten ++ (m.slot i).sendBuf := by
    rw [same]
    exact pushed
  have completions' : h.completions + 1 = h.batches.length := by
    rw [batches, completions, List.length_append]
    rfl
  have subRefs' : h.subRefs ++ [] ++ (m.slot i).completeSendBuf = h.batches.flatten := by
    rw [same, batches, List.append_nil, subRefs, List.flatten_append, List.flatten_singleton]
  rw [note]
  cases transferred with
  | zero =>
      exact .completing t [.disConnect .cas i] [] .count (.workerThread (.dec i) :: rest)
        (List.getElem?_set_self bound) .disConnect place pushed' completions' subRefs'
  | succ k =>
      exact .completing t [] [] .count (.workerThread (.dec i) :: rest)
        (List.getElem?_set_self bound) .nothing place pushed' completions' subRefs'

/-- What `WSASend` is called with. -/
theorem Piped.batch_of_issue (inv : Piped i s h)
    (here : s.threads[t]? = some (.postSend .issue i :: rest)) :
    0 < (h.wBuf t).length ∧ (h.wBuf t).length ≤ 100 := by
  have flag := inv.flagged.flag
  have one := (s.mem.slot i).flagged_le
  have own := Conf.le_tally (w := fun f => f.drains i + f.clears i) (List.mem_of_getElem? here)
    List.mem_cons_self
  have holds : (Frame.postSend .issue i).drains i + (Frame.postSend .issue i).clears i = 1 := by
    simp [share]
  have pipeline := inv.pipeline
  cases pipeline with
  | idle free =>
      have zero := Session.flagged_eq_zero_iff.mpr free
      omega
  | posting k pc below there place =>
      rcases eq_or_ne t k with rfl | other
      · rw [here] at there
        cases there
        exact place.2.2
      · have holds' := place.holds i
        have apart := Machine.add_le_tally_of_ne (fun f => f.drains i + f.clears i) here there
          other List.mem_cons_self List.mem_cons_self
        omega
  | outstanding out => omega
  | completing k above drops pc below there top place =>
      rcases eq_or_ne t k with rfl | other
      · rw [here] at there
        cases top <;> cases there
      · have holds' := place.holds i
        have apart := Machine.add_le_tally_of_ne (fun f => f.drains i + f.clears i) here there
          other List.mem_cons_self (List.mem_append_right above List.mem_cons_self)
        omega

theorem Piped.pipeline_next (inv : Piped i s h) (here : s.threads[t]? = some (f :: rest))
    (stays : f.ends i = false) (fits : PushFits i s t) {r : f.act.α} {m : Shared n}
    (done : exec f.act.op c s.mem = some (r, m)) :
    Pipeline i ⟨m, s.threads.set t (f.act.next r ++ rest)⟩ (Sent.note i t f rest r h) := by
  have slot := slot_exec i done
  have flag := inv.flagged.flag
  have one := (s.mem.slot i).flagged_le
  have received := slot.received_le
  have raised := slot.raised_add_flagged
  have own (g : Frame n) (member : g ∈ f :: rest) :=
    Conf.le_tally (w := fun f => f.drains i + f.clears i) (List.mem_of_getElem? here) member
  have pipeline := inv.pipeline
  cases pipeline with
  | idle free pushed complete completions subRefs =>
      have zero := Session.flagged_eq_zero_iff.mpr free
      by_cases takes : f = .postSend .cas i
      · subst takes
        cases r with
        | true => exact .take here pushed complete completions subRefs done
        | false =>
            exact inv.pipeline.other inv.flagged here stays fits
              (fun g member => by have := own g member; omega) done (by simp)
              (received_eq_zero (by simp) _)
      · exact inv.pipeline.other inv.flagged here stays fits
          (fun g member => by have := own g member; omega) done (raised_eq_zero takes r)
          (by omega)
  | posting k pc below there place pushed completions subRefs =>
      have holds := place.holds i
      rcases eq_or_ne t k with rfl | other
      · rw [here] at there
        cases there
        exact .post here stays place pushed completions subRefs done
      · have apart (g : Frame n) (member : g ∈ f :: rest) :=
          Machine.add_le_tally_of_ne (fun f => f.drains i + f.clears i) here there other member
            List.mem_cons_self
        have first := apart f List.mem_cons_self
        exact inv.pipeline.other inv.flagged here stays fits
          (fun g member => by have := apart g member; omega) done (by omega) (by omega)
  | outstanding out before batches count pushed completions subRefs =>
      by_cases hands : f.act.op.received i r = 0
      · exact inv.pipeline.other inv.flagged here stays fits
          (fun g member => by have := own g member; omega) done (by omega) hands
      · by_cases worker : f = .workerThread .idle
        · subst worker
          obtain ⟨j, isSend, transferred⟩ := r
          obtain ⟨rfl, rfl⟩ : isSend = true ∧ j = i := by
            revert hands
            simp [share]
          exact .hand here batches count pushed completions subRefs done
        · exact absurd (received_eq_zero worker r) hands
  | completing k above drops pc below there top place pushed completions subRefs =>
      have holds := place.holds i
      rcases eq_or_ne t k with rfl | other
      · rw [here] at there
        cases top with
        | nothing =>
            cases there
            rw [List.append_nil] at subRefs
            have note : Sent.note i t (.sendComplete pc i) rest r h = h := by
              cases pc <;> rfl
            rw [note]
            exact .complete here place pushed completions subRefs done
        | subRef p =>
            cases there
            exact .complete_above (.subRef p) here stays place pushed completions subRefs done
        | free p =>
            cases there
            exact .complete_above (.free p) here stays place pushed completions subRefs done
        | disConnect =>
            cases there
            exact absurd rfl (of_decide_eq_false stays)
      · have apart (g : Frame n) (member : g ∈ f :: rest) :=
          Machine.add_le_tally_of_ne (fun f => f.drains i + f.clears i) here there other member
            (List.mem_append_right above List.mem_cons_self)
        have first := apart f List.mem_cons_self
        exact inv.pipeline.other inv.flagged here stays fits
          (fun g member => by have := apart g member; omega) done (by omega) (by omega)

theorem Piped.step {p : Conf (Frame n) (Shared n) × Sent} {q : Conf (Frame n) (Shared n) × Sent}
    (inv : Piped i p.1 p.2) (stays : StaysLive i p.1 t) (fits : PushFits i p.1 t)
    (step : (iocp n).noted (Sent.note i) p t c = some q) : Piped i q.1 q.2 := by
  obtain ⟨f, rest, r, m, here, done, rfl⟩ := Machine.noted_cases step
  have stays := stays.ends here
  refine ⟨inv.flagged.next here stays done, ?_, inv.pipeline_next here stays fits done⟩
  apply Sent.forall_batches_note inv.bounded
  rintro rfl
  exact inv.batch_of_issue here

end Step

/-- The session of slot `i` as `CreateSession` finds it. -/
structure Unsent (i : Fin n) (s : Conf (Frame n) (Shared n)) : Prop extends Fresh i s where
  complete : (s.mem.slot i).completeSendBuf = []

/-- All sessions of a server that has just started have sent nothing. -/
theorem Shared.boot_unsent (n : Nat) (sessionID : UINT64) (kinds : List ThreadKind) (i : Fin n) :
    Unsent i (Shared.boot n sessionID kinds) := by
  refine ⟨⟨rfl, rfl, rfl, rfl, Conf.tally_eq_zero ?_⟩, rfl⟩
  intro stack member f inside
  rcases Shared.boot_frames n sessionID kinds stack member f inside with rfl | ⟨kind, rfl⟩
  · rfl
  · cases kind <;> rfl

end ChattingServer
