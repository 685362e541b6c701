import ChattingServer.AccountTable
import ChattingServer.SessionIds
import ChattingServer.SlotLife
import Mathlib.Data.List.Chain

/-!
# The players are the sessions

The session layer calls `OnClientJoin` and `OnClientLeave`, and the chat server
answers with `JoinProc` and `LeaveProc`.  `visit` picks out the calls for one
ID.  An ID names the slot it was made for (`Numbered`), and a slot lets its
session go before the next one comes: the calls for an ID come and go in turn
(`visits_in_turn`), even where the numbers in the IDs have come round.  Whatever
the chat server handles in between, every `JoinProc` then finds its ID free, and
`players` holds the sessions that have come and not gone, no more and no fewer
(`players_are_sessions`).
-/

namespace ChattingServer

variable {n : Nat}

/-! ## The calls for one ID -/

/-- Whether the event is a call for the ID, and if so whether its session comes. -/
def Event.visit (id : UINT64) : Event → Option Bool
  | .join _ other => if other = id then some true else none
  | .leave _ other => if other = id then some false else none
  | _ => none

/-- Whether the handler is a call for the ID, and if so whether its session comes. -/
def Handler.visit (id : UINT64) : Handler → Option Bool
  | .join _ other => if other = id then some true else none
  | .leave other => if other = id then some false else none
  | _ => none

/-- The calls for the ID, oldest first. -/
def Server.visits (s : Server) (id : UINT64) : List Bool := s.log.reverse.filterMap (Event.visit id)

/-- The session with the ID has come to the slot and not gone. -/
def Phase.attends (id : UINT64) : Phase → Bool
  | .joined other _ => other = id
  | .closed other _ => other = id
  | _ => false

/-- Comings and goings in turn, from nobody there to `here`. -/
structure InTurn (visits : List Bool) (here : Bool) : Prop where
  turns : (false :: visits).IsChain (· ≠ ·)
  last : (false :: visits).getLast? = some here

theorem InTurn.nothing : InTurn [] false := ⟨.singleton false, rfl⟩

theorem InTurn.concat {visits : List Bool} {here visit : Bool} (inTurn : InTurn visits here)
    (other : here ≠ visit) : InTurn (visits ++ [visit]) visit := by
  constructor
  · rw [← List.cons_append]
    refine inTurn.turns.append (.singleton visit) ?_
    intro x member y head
    rw [inTurn.last] at member
    cases member
    cases head
    exact other
  · rw [← List.cons_append, List.getLast?_concat]

/-- A phase to the next: no call for the ID, or one that changes who is there. -/
theorem Phase.Next.visit {i : Nat} {p q : Phase} {e : Event} (next : Next i p e q) (id : UINT64) :
    (e.visit id = none ∧ q.attends id = p.attends id) ∨
      (e.visit id = some (q.attends id) ∧ p.attends id ≠ q.attends id) := by
  cases next with
  | join other sock => by_cases same : other = id <;> simp [Event.visit, attends, same]
  | leave other sock => by_cases same : other = id <;> simp [Event.visit, attends, same]
  | _ => exact Or.inl ⟨rfl, rfl⟩

/-- What a slot goes through lets the session of an ID come and go in turn. -/
theorem Phase.Path.inTurn {i : Nat} {p : Phase} {trace : List Event} (path : Path i .free trace p)
    (id : UINT64) : InTurn (trace.filterMap (Event.visit id)) (p.attends id) := by
  induction path with
  | refl => exact .nothing
  | tail before next ih =>
      rw [List.filterMap_append]
      rcases next.visit id with ⟨quiet, same⟩ | ⟨call, other⟩
      · rw [List.filterMap_cons_none quiet, same]
        simpa using ih
      · rw [List.filterMap_cons_some call]
        exact ih.concat other

/-- A session leaves the slot it has joined. -/
theorem Phase.Path.join_of_leave {i : Nat} {p : Phase} {trace : List Event}
    (path : Path i .free trace p) {slot : Nat} {id : UINT64} (member : .leave slot id ∈ trace) :
    .join slot id ∈ trace := by
  obtain ⟨past, rfl⟩ := path.lives
  rcases List.mem_append.mp member with old | now
  · obtain ⟨session, been, inside⟩ := List.mem_flatMap.mp old
    refine List.mem_append_left _ (List.mem_flatMap.mpr ⟨session, been, ?_⟩)
    simp only [life, List.mem_cons] at inside ⊢
    simp_all
  · refine List.mem_append_right _ ?_
    cases p <;> simp_all [events, life]

/-! ## IDs name their slots -/

/-- At the places of the accept thread the ID in hand, or in the slot, is one
that was made for the slot. -/
def Frame.Numbered (m : Shared n) : Frame n → Prop
  | .acceptThread (.setID i _ id) => getSessionIndex id = i
  | .acceptThread (.setIndex i _) => getSessionIndex (m.slot i).sessionID = i
  | .acceptThread (.setSock i _) => getSessionIndex (m.slot i).sessionID = i
  | .acceptThread (.count i) => getSessionIndex (m.slot i).sessionID = i
  | .acceptThread (.loadID i) => getSessionIndex (m.slot i).sessionID = i
  | .acceptThread (.join i id) => getSessionIndex id = i
  | _ => True

theorem numbered_of_enters {m : Shared n} {f : Frame n} (enters : f.enters = true) :
    f.Numbered m := by
  cases f with
  | acceptThread pc => cases enters
  | _ => trivial

theorem Frame.Numbered.of_same {m m' : Shared n} {f : Frame n} (numbered : f.Numbered m)
    (same : ∀ i, 0 < f.token i → (m'.slot i).sessionID = (m.slot i).sessionID) :
    f.Numbered m' := by
  have one (i : Fin n) : 0 < share i i := (share_self i).ge
  cases f with
  | acceptThread pc => cases pc <;> first | trivial | exact numbered | simp_all [Frame.Numbered]
  | _ => trivial

structure Numbered (s : Conf (Frame n) (Shared n)) : Prop where
  frames : ∀ stack ∈ s.threads, ∀ f ∈ stack, f.Numbered s.mem
  slots : ∀ e ∈ s.mem.server.log, e.slot < n
  joins : ∀ slot id, .join slot id ∈ s.mem.server.log → getSessionIndex id = slot

theorem Numbered.boot (n : Nat) (sessionID : UINT64) (kinds : List ThreadKind) :
    Numbered (Shared.boot n sessionID kinds) := by
  refine ⟨?_, ?_, ?_⟩
  · intro stack member f inside
    rcases Shared.boot_frames n sessionID kinds stack member f inside with rfl | ⟨kind, rfl⟩
    · trivial
    · cases kind <;> trivial
  · intro e member
    cases member
  · intro slot id member
    cases member

theorem Op.told_of_aside {α : Type} {op : Op n α} {r : α} (aside : op.aside = true) :
    op.told r = [] := by
  cases op with
  | server op => cases aside
  | _ => rfl

/-- What is recorded is about a slot; a join, of the accept thread. -/
theorem event_of_told {f : Frame n} {r : f.act.α} (indexed : f.Indexed r) {e : Event}
    (told : e ∈ f.act.op.told r) :
    e.slot < n ∧ ∀ slot id, e = .join slot id →
      ∃ i : Fin n, slot = i ∧ f = .acceptThread (.join i id) := by
  by_cases outside : f.outside = true
  · rw [Op.told_of_aside (Frame.aside_of_outside outside)] at told
    cases told
  cases f with
  | acceptThread pc =>
      cases pc with
      | pop sock =>
          cases List.mem_singleton.mp told
          refine ⟨indexed, ?_⟩
          intro slot id join
          cases join
      | join i id =>
          cases List.mem_singleton.mp told
          refine ⟨i.isLt, ?_⟩
          intro slot id' join
          cases join
          exact ⟨i, rfl, rfl⟩
      | _ => cases told
  | disConnect pc i =>
      cases pc with
      | close sock =>
          cases List.mem_singleton.mp told
          refine ⟨i.isLt, ?_⟩
          intro slot id join
          cases join
      | _ => cases told
  | releaseSession pc i =>
      cases pc with
      | leave id =>
          cases List.mem_singleton.mp told
          refine ⟨i.isLt, ?_⟩
          intro slot id' join
          cases join
      | push index =>
          cases List.mem_singleton.mp told
          refine ⟨i.isLt, ?_⟩
          intro slot id join
          cases join
      | _ => cases told
  | undefined => cases told
  | _ => exact absurd rfl outside

section Step

variable {s : Conf (Frame n) (Shared n)} (numbered : Numbered s) (inv : Accounted s) {t : Nat}
  {c : Choice n} {f : Frame n} {rest : List (Frame n)} (here : s.threads[t]? = some (f :: rest))
  {r : f.act.α} {m : Shared n} (done : exec f.act.op c s.mem = some (r, m))

include numbered inv here done in
theorem Numbered.frames_stayed : ∀ stack ∈ s.threads.set t rest, ∀ g ∈ stack, g.Numbered m := by
  intro stack member g inside
  have before : g.Numbered s.mem := by
    obtain ⟨stack', old, inside'⟩ := Machine.exists_of_stayed here member inside
    exact numbered.frames stack' old g inside'
  apply before.of_same
  intro i token
  cases names : f.act.op.names i with
  | false => exact (slot_exec i done).names names
  | true =>
      have own := token_of_names names
      have both := Machine.add_le_tally (Frame.token i) here member inside
      have once := inv.once i
      unfold sessions at once
      omega

include done in
/-- `CreateSession` makes the ID for the slot. -/
theorem numbered_next (small : n ≤ 65536) (numbered : f.Numbered s.mem) :
    ∀ g ∈ f.act.next r, g.Numbered m := by
  by_cases outside : f.outside = true
  · exact fun g member => numbered_of_enters (Frame.enters_next outside r g member)
  cases f with
  | acceptThread pc =>
      cases pc with
      | accept => cases r <;> simp [Frame.Numbered]
      | full sock => cases r <;> simp [Frame.Numbered]
      | pop sock =>
          simp only [Frame.act, AcceptThread.act]
          split <;> simp [Frame.Numbered]
      | nextID i sock =>
          intro g member
          obtain rfl := List.mem_singleton.mp member
          show getSessionIndex (combineIdIndex r (BitVec.ofNat 64 i)) = i
          have inside := i.isLt
          rw [getSessionIndex_combineIdIndex r (by omega)]
          exact Nat.mod_eq_of_lt (by omega)
      | setID i sock id =>
          cases done
          simp only [Frame.Numbered] at numbered
          simp [Frame.Numbered, SessionOp.exec, numbered]
      | loadID i =>
          cases done
          simpa [Frame.Numbered, SessionOp.exec] using numbered
      | join i id => simp [Frame.Numbered]
      | _ =>
          cases done
          simpa [Frame.Numbered, SessionOp.exec] using numbered
  | disConnect pc i => cases pc <;> cases r <;> simp [Frame.Numbered]
  | releaseSession pc i => cases pc <;> cases r <;> simp [Frame.Numbered]
  | undefined => simp
  | _ => exact absurd rfl outside

end Step

theorem Numbered.step (small : n ≤ 65536) {s s' : Conf (Frame n) (Shared n)} {t : Nat} {c : Choice n}
    (numbered : Numbered s) (inv : Accounted s) (guarded : Guarded s t c)
    (step : (iocp n).step s t c = some s') : Numbered s' := by
  obtain ⟨f, rest, r, m, here, done, rfl⟩ := iocp_step_cases step
  have known := numbered.frames _ (List.mem_of_getElem? here) f List.mem_cons_self
  have indexed := (inv.expected here done guarded).indexed
  have log := (server_exec done).log
  refine ⟨?_, ?_, ?_⟩
  · exact Machine.forall_frames_step here (numbered_next done small known)
      (numbered.frames_stayed inv here done)
  · intro e member
    dsimp only at member
    rw [log] at member
    rcases List.mem_append.mp member with new | old
    · exact (event_of_told indexed new).1
    · exact numbered.slots e old
  · intro slot id member
    dsimp only at member
    rw [log] at member
    rcases List.mem_append.mp member with new | old
    · obtain ⟨i, rfl, rfl⟩ := (event_of_told indexed new).2 slot id rfl
      exact known
    · exact numbered.joins slot id old

theorem Numbered.of_run (small : n ≤ 65536) {sessionID : UINT64} {kinds : List ThreadKind}
    {s : Conf (Frame n) (Shared n)}
    (run : (iocp n).Steps Guarded (Shared.boot n sessionID kinds) s) : Numbered s := by
  have both : Accounted s ∧ Numbered s := by
    refine run.invariant (I := fun s => Accounted s ∧ Numbered s)
      ⟨.boot n sessionID kinds, .boot n sessionID kinds⟩ ?_
    intro s t c s' both guarded step
    exact ⟨both.1.step guarded step, both.2.step small both.1 guarded step⟩
  exact both.2

/-! ## The session layer -/

section Run

variable {sessionID : UINT64} {kinds : List ThreadKind} {s : Conf (Frame n) (Shared n)}
  (run : (iocp n).Steps Guarded (Shared.boot n sessionID kinds) s)
include run

theorem Phase.of_run (i : Fin n) :
    ∃ p, Path i .free (s.mem.server.history i) p ∧ p.Fits s i := by
  have free : Phase.free.Fits (Shared.boot n sessionID kinds) i := List.mem_range.mpr i.isLt
  obtain ⟨trace, p, path, history, fits⟩ := free.of_steps (.boot n sessionID kinds)
    (.boot n sessionID kinds) run
  have none : (Shared.boot n sessionID kinds).mem.server.history i = [] := rfl
  rw [none, List.nil_append] at history
  exact ⟨p, history ▸ path, fits⟩

/-- A call is recorded of the slot that the ID names. -/
theorem slot_of_visit (small : n ≤ 65536) {e : Event} (member : e ∈ s.mem.server.log) {id : UINT64}
    {comes : Bool} (visit : e.visit id = some comes) : getSessionIndex id = e.slot := by
  have numbered := Numbered.of_run small run
  cases e with
  | join slot other =>
      have same : other = id := by
        by_contra different
        simp [Event.visit, different] at visit
      exact numbered.joins slot id (same ▸ member)
  | leave slot other =>
      have same : other = id := by
        by_contra different
        simp [Event.visit, different] at visit
      obtain ⟨p, path, -⟩ := Phase.of_run run ⟨slot, numbered.slots _ member⟩
      have recorded : Event.leave slot other ∈ s.mem.server.history slot := by
        rw [Server.history, List.mem_reverse, List.mem_filter]
        exact ⟨member, decide_eq_true rfl⟩
      have joined := path.join_of_leave recorded
      rw [Server.history, List.mem_reverse, List.mem_filter] at joined
      exact numbered.joins slot id (same ▸ joined.1)
  | _ => cases visit

theorem visits_eq (small : n ≤ 65536) (id : UINT64) : s.mem.server.visits id =
    (s.mem.server.history (getSessionIndex id)).filterMap (Event.visit id) := by
  rw [Server.visits, Server.history, List.filterMap_reverse, List.filterMap_reverse,
    List.filterMap_filter]
  congr 1
  apply List.filterMap_congr
  intro e member
  cases visit : e.visit id with
  | none => exact (ite_self none).symm
  | some comes =>
      have named := slot_of_visit run small member visit
      exact (if_pos (decide_eq_true named.symm)).symm

end Run

/-- Who is in a slot, by its phase. -/
theorem Phase.Fits.attends_iff {s : Conf (Frame n) (Shared n)} {i : Fin n} {p : Phase}
    (fits : p.Fits s i) (id : UINT64) :
    p.attends id = true ↔ Working s i ∧ (s.mem.slot i).sessionID = id := by
  cases p with
  | free =>
      refine ⟨fun absent => (Bool.false_ne_true absent).elim, ?_⟩
      intro inside
      exact absurd fits inside.1.1
  | created =>
      refine ⟨fun absent => (Bool.false_ne_true absent).elim, ?_⟩
      intro inside
      have begun : 0 < s.tally (Frame.unjoined i) := fits
      have none := inside.1.2.1
      omega
  | joined other sock =>
      obtain ⟨working, bears, -⟩ := fits
      rw [bears]
      exact ⟨fun same => ⟨working, of_decide_eq_true same⟩, fun inside => decide_eq_true inside.2⟩
  | closed other sock =>
      obtain ⟨working, bears, -⟩ := fits
      rw [bears]
      exact ⟨fun same => ⟨working, of_decide_eq_true same⟩, fun inside => decide_eq_true inside.2⟩
  | left other sock =>
      refine ⟨fun absent => (Bool.false_ne_true absent).elim, ?_⟩
      intro inside
      have begun : 0 < s.tally (Frame.emptying i) := fits
      have none := inside.1.2.2
      omega

/-- **The calls for an ID come and go in turn**, and the last one says whether a
session with that ID is in a slot. -/
theorem visits_in_turn (small : n ≤ 65536) {sessionID : UINT64} {kinds : List ThreadKind}
    {s : Conf (Frame n) (Shared n)}
    (run : (iocp n).Steps Guarded (Shared.boot n sessionID kinds) s) (id : UINT64) :
    ∃ here, InTurn (s.mem.server.visits id) here ∧
      (here = true ↔ ∃ i, Working s i ∧ (s.mem.slot i).sessionID = id) := by
  have named (i : Fin n) (inside : Working s i ∧ (s.mem.slot i).sessionID = id) :
      getSessionIndex id = i := by
    obtain ⟨p, path, fits⟩ := Phase.of_run run i
    have attends := (fits.attends_iff id).mpr inside
    have last := (path.inTurn id).last
    rw [attends] at last
    cases calls : (s.mem.server.history i).filterMap (Event.visit id) with
    | nil =>
        rw [calls] at last
        cases last
    | cons comes calls' =>
        obtain ⟨e, member, visit⟩ := List.mem_filterMap.mp (calls ▸ List.mem_cons_self)
        rw [Server.history, List.mem_reverse, List.mem_filter] at member
        rw [slot_of_visit run small member.1 visit]
        exact of_decide_eq_true member.2
  rcases Nat.lt_or_ge (getSessionIndex id) n with inside | outside
  · obtain ⟨p, path, fits⟩ := Phase.of_run run ⟨getSessionIndex id, inside⟩
    refine ⟨p.attends id, ?_, ?_⟩
    · rw [visits_eq run small id]
      exact path.inTurn id
    · rw [fits.attends_iff id]
      refine ⟨fun here => ⟨_, here⟩, ?_⟩
      intro here
      obtain ⟨i, there⟩ := here
      obtain rfl : ⟨getSessionIndex id, inside⟩ = i := Fin.ext (named i there)
      exact there
  · refine ⟨false, ?_, ?_⟩
    · have none : s.mem.server.visits id = [] := by
        apply List.eq_nil_iff_forall_not_mem.mpr
        intro comes member
        obtain ⟨e, recorded, visit⟩ := List.mem_filterMap.mp member
        rw [List.mem_reverse] at recorded
        have slot := (Numbered.of_run small run).slots e recorded
        rw [← slot_of_visit run small recorded visit] at slot
        omega
      rw [none]
      exact .nothing
    · refine ⟨fun absent => (Bool.false_ne_true absent).elim, ?_⟩
      intro here
      obtain ⟨i, there⟩ := here
      have inside := i.isLt
      have slot := named i there
      omega

/-! ## The chat server -/

namespace ChatServer

variable {s s' : ChatServer}

theorem isSome_seating (s : ChatServer) (id : UINT64) :
    (s.seating id).isSome = (s.players id).isSome :=
  Option.isSome_map

theorem isSome_change (roster : Roster) (sessionID id : UINT64) (f : Seat → Seat) :
    (roster.change sessionID f id).isSome = (roster id).isSome := by
  rw [Roster.change]
  rcases eq_or_ne id sessionID with rfl | other
  · rw [Function.update_self, Option.isSome_map]
  · rw [Function.update_of_ne other]

theorem isSome_login (roster : Roster) (sessionID id : UINT64) (success : Bool) :
    (roster.login sessionID success id).isSome = (roster id).isSome := by
  rw [Roster.login]
  split
  · exact isSome_change ..
  · rfl

/-- `JoinProc` succeeds on an ID that is free, and leaves a player in any case. -/
theorem isSome_joinProc (orderly : Orderly s) (now sessionID id : UINT64) :
    (s.joinProc now sessionID).1 = !(s.players sessionID).isSome ∧
      ((s.joinProc now sessionID).2.players id).isSome =
        (decide (sessionID = id) || (s.players id).isSome) := by
  obtain ⟨player, t, -, -, players, -, -, -, -, result⟩ := joinProc_cases orderly now sessionID
  rw [result]
  split
  · rename_i there
    refine ⟨by rw [there]; rfl, ?_⟩
    dsimp only
    rw [players]
    rcases eq_or_ne sessionID id with rfl | other
    · simp [there]
    · simp [other]
  · rename_i absent
    refine ⟨by simp [absent], ?_⟩
    dsimp only
    rw [players]
    rcases eq_or_ne sessionID id with rfl | other
    · simp
    · simp [other, Function.update_of_ne other.symm]

/-- A session has a player after a call for its ID if it comes, and after any
other handler if it had one. -/
theorem isSome_exec (orderly : Orderly s) {handler : Handler} {ok : Bool}
    (done : handler.exec s = some (ok, s')) (id : UINT64) :
    (s'.players id).isSome = (handler.visit id).getD (s.players id).isSome := by
  have shows := (orderly_exec orderly done).2
  cases handler with
  | join now sessionID =>
      obtain ⟨-, after⟩ := isSome_joinProc orderly now sessionID id
      rw [Option.some.inj done] at after
      rw [after, Handler.visit]
      rcases eq_or_ne sessionID id with rfl | other
      · simp
      · simp [other]
  | leave sessionID =>
      rw [← isSome_seating, shows, Roster.next, Handler.visit]
      rcases eq_or_ne sessionID id with rfl | other
      · simp
      · simp [other, Function.update_of_ne other.symm, isSome_seating]
  | recv env fuel sessionID packet =>
      rw [← isSome_seating, shows, Roster.next]
      split
      · exact (isSome_change ..).trans (isSome_seating s id)
      · exact isSome_seating s id
  | complete env fuel sessionID packet success =>
      rw [← isSome_seating, shows]
      exact (isSome_login ..).trans (isSome_seating s id)
  | redis env fuel success =>
      rw [← isSome_seating, shows]
      cases s.redisQ with
      | nil => exact isSome_seating s id
      | cons job jobs => exact (isSome_login ..).trans (isSome_seating s id)

end ChatServer

/-- The last call for an ID says whether it has a player. -/
theorem isSome_run {history : List Handler} {s s' : ChatServer} {roster roster' : Roster}
    (orderly : s.Orderly) (ran : run history (s, roster) = some (s', roster')) (id : UINT64) :
    ((s.players id).isSome :: history.filterMap (Handler.visit id)).getLast? =
      some (s'.players id).isSome := by
  induction history generalizing s roster with
  | nil =>
      cases ran
      rfl
  | cons handler rest ih =>
      obtain ⟨⟨ok, next⟩, done, ran⟩ := Option.bind_eq_some_iff.mp ran
      have after := ih (ChatServer.orderly_exec orderly done).1 ran
      rw [ChatServer.isSome_exec orderly done id] at after
      cases visit : handler.visit id with
      | none =>
          rw [visit] at after
          rw [List.filterMap_cons_none visit]
          exact after
      | some comes =>
          rw [visit] at after
          rw [List.filterMap_cons_some visit, List.getLast?_cons_cons]
          exact after

/-- A call that comes in turn finds the ID as the calls before have left it. -/
theorem isSome_before {past rest : List Handler} {handler : Handler} {s : ChatServer}
    {roster : Roster} (reached : Reached (past ++ handler :: rest) s roster) {id : UINT64}
    {comes here : Bool} (visit : handler.visit id = some comes)
    (inTurn : InTurn ((past ++ handler :: rest).filterMap (Handler.visit id)) here) :
    ∃ s₁ roster₁, Reached past s₁ roster₁ ∧ (s₁.players id).isSome = !comes := by
  rw [Reached, run_append] at reached
  obtain ⟨⟨s₁, roster₁⟩, before, -⟩ := Option.bind_eq_some_iff.mp reached
  refine ⟨s₁, roster₁, before, ?_⟩
  have last := isSome_run ChatServer.orderly_start before id
  have turns := inTurn.turns
  rw [List.filterMap_append, List.filterMap_cons_some visit, ← List.cons_append,
    List.isChain_append] at turns
  exact Bool.eq_not.mpr (turns.2.2 _ last comes rfl)

/-- **The players are the sessions.** The calls of `JoinProc` and `LeaveProc` in a
history of the chat server are those of a run of the session layer, and anything
else may come between.  Then every `JoinProc` succeeds, every `LeaveProc` finds
its player, and `players` has an ID exactly if a session with it is in a slot; a
session that anything holds can be acquired. -/
theorem players_are_sessions {n : Nat} (small : n ≤ 65536) {sessionID : UINT64}
    {kinds : List ThreadKind} {s : Conf (Frame n) (Shared n)}
    (ran : (iocp n).Steps Guarded (Shared.boot n sessionID kinds) s)
    {history : List Handler} {chat : ChatServer} {roster : Roster}
    (reached : Reached history chat roster)
    (calls : ∀ id, history.filterMap (Handler.visit id) = s.mem.server.visits id) :
    (∀ past now id rest, history = past ++ .join now id :: rest →
        ∃ before roster₁, Reached past before roster₁ ∧ (before.joinProc now id).1 = true) ∧
      (∀ past id rest, history = past ++ .leave id :: rest →
        ∃ before roster₁, Reached past before roster₁ ∧ (before.players id).isSome = true) ∧
      (∀ id, (chat.players id).isSome = true ↔
        ∃ i, Working s i ∧ (s.mem.slot i).sessionID = id) ∧
      ∀ i, (s.mem.slot i).live = 1 →
        ∃ player, (chat.acquirePlayer (s.mem.slot i).sessionID).1 = some player := by
  have shown (id : UINT64) : (chat.players id).isSome = true ↔
      ∃ i, Working s i ∧ (s.mem.slot i).sessionID = id := by
    obtain ⟨here, inTurn, inside⟩ := visits_in_turn small ran id
    have last := isSome_run ChatServer.orderly_start reached id
    rw [calls id] at last
    have same := last.symm.trans inTurn.last
    rw [Option.some.inj same]
    exact inside
  refine ⟨?_, ?_, shown, ?_⟩
  · intro past now id rest split
    subst split
    obtain ⟨here, inTurn, -⟩ := visits_in_turn small ran id
    rw [← calls id] at inTurn
    obtain ⟨before, roster₁, reached₁, absent⟩ := isSome_before reached (if_pos rfl) inTurn
    refine ⟨before, roster₁, reached₁, ?_⟩
    rw [(ChatServer.isSome_joinProc reached₁.orderly.1 now id id).1, absent]
    rfl
  · intro past id rest split
    subst split
    obtain ⟨here, inTurn, -⟩ := visits_in_turn small ran id
    rw [← calls id] at inTurn
    exact isSome_before reached (if_pos rfl) inTurn
  · intro i live
    have inv := Accounted.of_run ran
    obtain ⟨unstacked, unjoined, emptying, -⟩ := inv.unbegun_of_live live
    obtain ⟨player, joined⟩ := Option.isSome_iff_exists.mp
      ((shown (s.mem.slot i).sessionID).mpr ⟨i, ⟨unstacked, unjoined, emptying⟩, rfl⟩)
    refine ⟨player, ?_⟩
    rw [ChatServer.acquirePlayer_of_attended ⟨joined, reached.orderly.1.staying joined⟩]

/-- The only slot of a server is used twice.  The first session's `LeaveProc` finds
its player, which `players` has no longer; the second session's is there and can
be acquired. -/
theorem players_are_sessions_reused :
    ∃ (s : Conf (Frame 1) (Shared 1)) (chat : ChatServer) (roster : Roster),
      (iocp 1).Steps Guarded (Shared.boot 1 0 [.worker]) s ∧
      Reached [.join 5 firstID, .leave firstID, .join 9 0x2000000000000] chat roster ∧
      (∃ before roster₁, Reached [.join 5 firstID] before roster₁ ∧
        (before.players firstID).isSome = true) ∧
      ¬ (chat.players firstID).isSome = true ∧
      ∃ player, (chat.acquirePlayer 0x2000000000000).1 = some player := by
  have reached : ((iocp 1).runIf Guarded (acceptOne ++ closeOne ++ acceptOne)
      (Shared.boot 1 0 [.worker])).map (fun s =>
        (s.mem.server.log, (s.mem.slot 0).live, (s.mem.slot 0).sessionID)) =
      some ([.join 0 0x2000000000000, .create 0, .push 0 0, .leave 0 firstID, .close 0 (some 1),
        .join 0 firstID, .create 0], 1, 0x2000000000000) := by
    decide +kernel
  obtain ⟨s, taken, found⟩ := Option.map_eq_some_iff.mp reached
  simp only [Prod.mk.injEq] at found
  obtain ⟨log, live, second⟩ := found
  have ran := Machine.Steps.of_runIf taken
  obtain ⟨chat, roster, visits⟩ : ∃ chat roster,
      Reached [.join 5 firstID, .leave firstID, .join 9 0x2000000000000] chat roster :=
    ⟨_, _, rfl⟩
  have calls (id : UINT64) :
      [Handler.join 5 firstID, .leave firstID, .join 9 0x2000000000000].filterMap
        (Handler.visit id) = s.mem.server.visits id := by
    rw [Server.visits, log]
    rfl
  obtain ⟨-, leaves, shown, acquired⟩ := players_are_sessions (by decide) ran visits calls
  refine ⟨s, chat, roster, ran, visits, leaves [.join 5 firstID] firstID _ rfl, ?_,
    second ▸ acquired 0 live⟩
  rw [shown]
  rintro ⟨i, -, bears⟩
  obtain rfl : i = 0 := Subsingleton.elim i 0
  rw [second] at bears
  revert bears
  decide

end ChattingServer
