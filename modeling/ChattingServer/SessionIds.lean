import ChattingServer.StaleIds
import Mathlib.Data.List.Nodup

/-!
# Session IDs

`CreateSession` puts the number of the accept over the index of the slot.  The
shift leaves sixteen bits of the number, and `GET_SESSION_INDEX` reads back the
sixteen low bits of the index, so how long IDs stay distinct and find their slot
depends on the slots the accepts of a run have taken (`session_ids_iff`).
-/

namespace ChattingServer

variable {n : Nat}

/-! ## The bits of an ID -/

theorem toNat_combineIdIndex (number : UINT64) {index : Nat} (narrow : index < 2 ^ 48) :
    (combineIdIndex number (BitVec.ofNat 64 index)).toNat =
      number.toNat % 65536 * 2 ^ 48 + index := by
  have word : index % 2 ^ 64 = index := Nat.mod_eq_of_lt (by omega)
  have shift : number.toNat <<< 48 % 2 ^ 64 = (number.toNat % 65536) <<< 48 := by
    rw [Nat.shiftLeft_eq, Nat.shiftLeft_eq]
    omega
  rw [combineIdIndex, BitVec.toNat_or, BitVec.toNat_shiftLeft, BitVec.toNat_ofNat, word, shift,
    ← Nat.shiftLeft_add_eq_or_of_lt narrow, Nat.shiftLeft_eq]

theorem getSessionIndex_eq_mod (id : UINT64) : getSessionIndex id = id.toNat % 65536 := by
  have mask : (0xffff : UINT64).toNat = 2 ^ 16 - 1 := rfl
  rw [getSessionIndex, BitVec.toNat_and, mask, Nat.and_two_pow_sub_one_eq_mod]

theorem getSessionIndex_combineIdIndex (number : UINT64) {index : Nat} (narrow : index < 2 ^ 48) :
    getSessionIndex (combineIdIndex number (BitVec.ofNat 64 index)) = index % 65536 := by
  rw [getSessionIndex_eq_mod, toNat_combineIdIndex number narrow]
  omega

theorem combineIdIndex_eq_iff (number number' : UINT64) {index index' : Nat}
    (narrow : index < 2 ^ 48) (narrow' : index' < 2 ^ 48) :
    combineIdIndex number (BitVec.ofNat 64 index) =
        combineIdIndex number' (BitVec.ofNat 64 index') ↔
      number.toNat % 65536 = number'.toNat % 65536 ∧ index = index' := by
  rw [← BitVec.toNat_inj, toNat_combineIdIndex number narrow,
    toNat_combineIdIndex number' narrow']
  omega

/-! ## The IDs of a run -/

/-- The slots that `CreateSession` has taken and the IDs it has given them,
newest first. -/
abbrev Given (n : Nat) : Type := List (Fin n × UINT64)

def Given.note (_ : Nat) (f : Frame n) (_ : List (Frame n)) (r : f.act.α) (h : Given n) :
    Given n :=
  match f, r with
  | .acceptThread (.nextID i _), id => (i, combineIdIndex id (BitVec.ofNat 64 i)) :: h
  | _, _ => h

/-- All the IDs differ, and each names its own slot. -/
structure Given.Unambiguous (h : Given n) : Prop where
  differ : (h.map Prod.snd).Nodup
  resolve : ∀ i id, (i, id) ∈ h → getSessionIndex id = i

/-- Sixteen bits hold the indices, and accepts into one slot are not a multiple
of 65536 accepts apart. -/
structure Resolvable (slots : List (Fin n)) : Prop where
  narrow : ∀ i ∈ slots, i.val < 65536
  apart : ∀ j k i, j < k → slots[j]? = some i → slots[k]? = some i → ¬ 65536 ∣ k - j

/-- The IDs that accepts into the slots give, counting from `sessionID` on. -/
def Given.numbered (sessionID : UINT64) : List (Fin n) → Given n
  | [] => []
  | i :: older =>
      (i, combineIdIndex (sessionID + BitVec.ofNat 64 (older.length + 1)) (BitVec.ofNat 64 i)) ::
        numbered sessionID older

theorem Given.getElem?_numbered (sessionID : UINT64) (slots : List (Fin n)) (k : Nat) :
    (numbered sessionID slots)[k]? = slots[k]?.map fun i : Fin n =>
      (i, combineIdIndex (sessionID + BitVec.ofNat 64 (slots.length - k)) (BitVec.ofNat 64 i)) := by
  induction slots generalizing k with
  | nil => rfl
  | cons i older ih =>
      cases k with
      | zero => rfl
      | succ k =>
          rw [numbered, List.getElem?_cons_succ, ih, List.getElem?_cons_succ, List.length_cons,
            Nat.add_sub_add_right]

theorem Given.length_numbered (sessionID : UINT64) (slots : List (Fin n)) :
    (numbered sessionID slots).length = slots.length := by
  induction slots with
  | nil => rfl
  | cons i older ih => rw [numbered, List.length_cons, ih, List.length_cons]

/-- **What the slots decide.** -/
theorem Given.unambiguous_numbered_iff (small : n < 2 ^ 31) (sessionID : UINT64)
    (slots : List (Fin n)) :
    (numbered sessionID slots).Unambiguous ↔ Resolvable slots := by
  have narrow (i : Fin n) : i.val < 2 ^ 48 := by omega
  constructor
  · rintro ⟨differ, resolve⟩
    constructor
    · intro i member
      obtain ⟨k, there⟩ := List.mem_iff_getElem?.mp member
      have given := getElem?_numbered sessionID slots k
      rw [there, Option.map_some] at given
      have named := resolve _ _ (List.mem_of_getElem? given)
      rw [getSessionIndex_combineIdIndex _ (narrow i)] at named
      omega
    · rintro j k i before first second ⟨q, multiple⟩
      have inside := (List.getElem?_eq_some_iff.mp second).1
      have length := length_numbered sessionID slots
      rw [List.nodup_iff_getElem?_ne_getElem?] at differ
      apply differ j k before (by rw [List.length_map, length]; exact inside)
      rw [List.getElem?_map, List.getElem?_map, getElem?_numbered, getElem?_numbered, first,
        second]
      refine congrArg some ((combineIdIndex_eq_iff _ _ (narrow i) (narrow i)).mpr ⟨?_, rfl⟩)
      rw [BitVec.toNat_add, BitVec.toNat_add, BitVec.toNat_ofNat, BitVec.toNat_ofNat]
      omega
  · rintro ⟨fits, apart⟩
    constructor
    · rw [List.nodup_iff_getElem?_ne_getElem?]
      intro j k before inside same
      rw [List.length_map, length_numbered] at inside
      have first := List.getElem?_eq_getElem (Nat.lt_trans before inside)
      have second := List.getElem?_eq_getElem inside
      rw [List.getElem?_map, List.getElem?_map, getElem?_numbered, getElem?_numbered, first,
        second] at same
      obtain ⟨number, index⟩ :=
        (combineIdIndex_eq_iff _ _ (narrow _) (narrow _)).mp (Option.some.inj same)
      rw [BitVec.toNat_add, BitVec.toNat_add, BitVec.toNat_ofNat, BitVec.toNat_ofNat] at number
      apply apart j k slots[k] before _ second
      · omega
      · rw [first]
        exact congrArg some (Fin.ext index)
    · intro i id member
      obtain ⟨k, given⟩ := List.mem_iff_getElem?.mp member
      rw [getElem?_numbered] at given
      obtain ⟨i', there, same⟩ := Option.map_eq_some_iff.mp given
      cases same
      have low := fits i (List.mem_of_getElem? there)
      rw [getSessionIndex_combineIdIndex _ (narrow i), Nat.mod_eq_of_lt low]

/-! ## Runs -/

/-- `++sessionID`. -/
def Op.numbers : {α : Type} → Op n α → Bool
  | _, .server .nextID => true
  | _, _ => false

theorem ServerOp.sessionID_exec {α : Type} {op : ServerOp α} {s s' : Server} {r : α}
    (done : op.exec s = some (r, s')) (other : (Op.server (n := n) op).numbers = false) :
    s'.sessionID = s.sessionID := by
  cases op with
  | nextID => cases other
  | popIndex =>
      obtain ⟨indexStack, sessionCount, sessionID, log⟩ := s
      cases indexStack with
      | nil => cases done
      | cons index rest =>
          cases done
          rfl
  | _ =>
      cases done
      rfl

theorem sessionID_exec {α : Type} {op : Op n α} {c : Choice n} {m m' : Shared n} {r : α}
    (done : exec op c m = some (r, m')) (other : op.numbers = false) :
    m'.server.sessionID = m.server.sessionID := by
  cases op with
  | server op =>
      obtain ⟨⟨r', server⟩, done', same⟩ := Option.map_eq_some_iff.mp done
      cases same
      exact op.sessionID_exec done' other
  | outside op =>
      obtain ⟨r', -, same⟩ := Option.map_eq_some_iff.mp done
      cases same
      rfl
  | wsaRecv i => rcases Shared.issue_cases done with ⟨-, rfl⟩ | ⟨-, rfl⟩ <;> rfl
  | wsaSend i => rcases Shared.issue_cases done with ⟨-, rfl⟩ | ⟨-, rfl⟩ <;> rfl
  | completion =>
      obtain ⟨s, -, rfl⟩ := Shared.complete_cases done
      rfl
  | undefined => cases done
  | _ =>
      cases done
      rfl

/-- Only `CreateSession` counts. -/
theorem Frame.numbers_cases (f : Frame n) :
    (∃ i sock, f = .acceptThread (.nextID i sock)) ∨ f.act.op.numbers = false ∧
      ∀ t rest r h, Given.note t f rest r h = h := by
  cases f with
  | acceptThread pc =>
      cases pc with
      | nextID i sock => exact Or.inl ⟨i, sock, rfl⟩
      | _ => exact Or.inr ⟨rfl, fun _ _ _ _ => rfl⟩
  | lock id use =>
      refine Or.inr ⟨?_, fun _ _ _ _ => rfl⟩
      rcases Frame.act_lock_cases id use with ⟨i, -, act⟩ | act
      · rw [act]
        rfl
      · rw [act]
        rfl
  | postRecv pc i who => cases pc <;> exact Or.inr ⟨rfl, fun _ _ _ _ => rfl⟩
  | disConnect pc i => cases pc <;> exact Or.inr ⟨rfl, fun _ _ _ _ => rfl⟩
  | releaseSession pc i => cases pc <;> exact Or.inr ⟨rfl, fun _ _ _ _ => rfl⟩
  | sessionLock pc i id use => cases pc <;> exact Or.inr ⟨rfl, fun _ _ _ _ => rfl⟩
  | sendPacket pc i p => cases pc <;> exact Or.inr ⟨rfl, fun _ _ _ _ => rfl⟩
  | postSend pc i => cases pc <;> exact Or.inr ⟨rfl, fun _ _ _ _ => rfl⟩
  | sendComplete pc i => cases pc <;> exact Or.inr ⟨rfl, fun _ _ _ _ => rfl⟩
  | recvComplete pc i => cases pc <;> exact Or.inr ⟨rfl, fun _ _ _ _ => rfl⟩
  | workerThread pc => cases pc <;> exact Or.inr ⟨rfl, fun _ _ _ _ => rfl⟩
  | _ => exact Or.inr ⟨rfl, fun _ _ _ _ => rfl⟩

/-- The record is that of its slots, and the server has counted it. -/
structure Counted (sessionID : UINT64) (s : Conf (Frame n) (Shared n)) (h : Given n) : Prop where
  given : h = .numbered sessionID (h.map Prod.fst)
  count : s.mem.server.sessionID = sessionID + BitVec.ofNat 64 h.length

theorem Counted.step {sessionID : UINT64} {p q : Conf (Frame n) (Shared n) × Given n} {t : Nat}
    {c : Choice n} (counted : Counted sessionID p.1 p.2)
    (step : (iocp n).noted Given.note p t c = some q) : Counted sessionID q.1 q.2 := by
  obtain ⟨f, rest, r, m, here, done, rfl⟩ := Machine.noted_cases step
  rcases Frame.numbers_cases f with ⟨i, sock, rfl⟩ | ⟨other, note⟩
  · cases done
    have next : p.1.mem.server.sessionID + 1 =
        sessionID + BitVec.ofNat 64 (p.2.length + 1) := by
      rw [counted.count, BitVec.add_assoc]
      exact congrArg (sessionID + ·) (BitVec.ofNat_add p.2.length 1).symm
    refine ⟨?_, next⟩
    show (i, combineIdIndex (p.1.mem.server.sessionID + 1) (BitVec.ofNat 64 i)) :: p.2 =
      Given.numbered sessionID (i :: p.2.map Prod.fst)
    rw [Given.numbered, List.length_map, next, ← counted.given]
  · rw [show Given.note t f rest r p.2 = p.2 from note t rest r p.2]
    exact ⟨counted.given, (sessionID_exec done other).trans counted.count⟩

/-- **Session IDs.**  The IDs given in a run all differ and find their slots
exactly when the slots taken are small enough and not taken again a multiple of
65536 accepts later. -/
theorem session_ids_iff {n : Nat} (small : n < 2 ^ 31) {sessionID : UINT64}
    {kinds : List ThreadKind} {s : Conf (Frame n) (Shared n)} {h : Given n}
    (run : (iocp n).NotedSteps Given.note (fun _ _ _ => True)
      (Shared.boot n sessionID kinds, []) (s, h)) :
    h.Unambiguous ↔ Resolvable (h.map Prod.fst) := by
  have counted : Counted sessionID s h := by
    refine run.invariant (I := Counted sessionID) ⟨rfl, ?_⟩ fun _ _ _ _ inv _ step => inv.step step
    exact (BitVec.add_zero sessionID).symm
  rw [counted.given]
  have slots : (Given.numbered sessionID (h.map Prod.fst)).map Prod.fst = h.map Prod.fst :=
    congrArg (List.map Prod.fst) counted.given.symm
  rw [slots]
  exact Given.unambiguous_numbered_iff small sessionID _

section Lone

variable {m : Shared n} {i : Fin n} {h : Given n} {q : Conf (Frame n) (Shared n) × Given n}

/-- The stores of `CreateSession`, `OnClientJoin` and `PostRecv`. -/
theorem lone_join (live : ∀ j, (m.slot j).isReleased = false) (sock : Nat) (id : UINT64) :
    ∃ m', (iocp n).NotedSteps Given.note (fun _ _ _ => True)
        (⟨m, [[.acceptThread (.setID i sock id)]]⟩, h) (⟨m', [[.acceptThread .accept]]⟩, h) ∧
      m'.server.indexStack = m.server.indexStack ∧
      m'.server.sessionCount = m.server.sessionCount + 1 ∧
      ∀ j, (m'.slot j).isReleased = false := by
  apply Exists.intro
  constructor
  · refine .lone (c := .none) rfl trivial ?_
    refine .lone (c := .none) rfl trivial ?_
    refine .lone (c := .none) rfl trivial ?_
    refine .lone (c := .none) rfl trivial ?_
    refine .lone (c := .none) rfl trivial ?_
    refine .lone (c := .none) rfl trivial ?_
    refine .lone (c := .none) (r := false) (congrArg (fun b => some (b, _)) ?_) trivial ?_
    · simp only [SessionOp.exec, Shared.setSlot, Function.update_self, live]
      rfl
    refine .lone (c := .none) rfl trivial ?_
    refine .lone (c := .outcome true) rfl trivial ?_
    exact .refl
  · refine ⟨rfl, rfl, fun j => ?_⟩
    rcases eq_or_ne j i with rfl | other
    · simp only [SessionOp.exec, Session.outstanding, Shared.setSlot, Function.update_self, live,
        Bool.false_eq_true, if_false]
    · simp only [Shared.setSlot, Function.update_of_ne other, live]

end Lone

/-- The accept thread has taken `k` clients, and all have stayed. -/
structure Accepting (k : Nat) (s : Conf (Frame n) (Shared n)) : Prop where
  alone : s.threads = [[.acceptThread .accept]]
  stack : s.mem.server.indexStack = (List.range n).drop k
  count : s.mem.server.sessionCount = k
  live : ∀ i, (s.mem.slot i).isReleased = false

/-- While there is a slot left, the accept thread takes another client into the
next one, and all stay. -/
theorem Accepting.next {k : Nat} {s : Conf (Frame n) (Shared n)} (accepting : Accepting k s)
    (room : k < n) (h : Given n) : ∃ s' id,
      (iocp n).NotedSteps Given.note (fun _ _ _ => True) (s, h) (s', (⟨k, room⟩, id) :: h) ∧
        Accepting (k + 1) s' := by
  obtain ⟨⟨slot, ⟨indexStack, sessionCount, sessionID, log⟩, packets⟩, threads⟩ := s
  obtain ⟨rfl, stack, rfl, live⟩ := accepting
  have first : (List.range n).drop k = k :: (List.range n).drop (k + 1) := by
    rw [List.drop_eq_getElem_cons (by rw [List.length_range]; exact room), List.getElem_range]
  obtain rfl : indexStack = k :: (List.range n).drop (k + 1) := stack.trans first
  have less : decide ((k : Int) ≥ n) = false := decide_eq_false (by omega)
  have placed : (AcceptThread.pop 1 : AcceptThread n).act.next k =
      [.acceptThread (.nextID ⟨k, room⟩ 1)] := dif_pos room
  let id := combineIdIndex (sessionID + 1) (BitVec.ofNat 64 k)
  obtain ⟨m', joins, stack', count', live'⟩ := lone_join (h := (⟨k, room⟩, id) :: h)
    (m := ⟨slot, ⟨(List.range n).drop (k + 1), k, sessionID + 1, .create k :: log⟩, packets⟩)
    (i := ⟨k, room⟩) live 1 id
  refine ⟨⟨m', [[.acceptThread .accept]]⟩, id, ?_, rfl, stack', ?_, live'⟩
  · refine .lone (c := .socket (some 1)) rfl trivial ?_
    refine .lone (c := .none) (r := false) (congrArg (fun b => some (b, _)) less) trivial ?_
    refine .lone (c := .none) (r := k) rfl trivial ?_
    show Machine.NotedSteps _ _ _ (⟨_, [(AcceptThread.pop 1).act.next k ++ []]⟩, h) _
    rw [placed]
    refine .lone (c := .none) rfl trivial ?_
    exact joins
  · rw [count']
    push_cast
    rfl

/-- The accept thread can take as many clients as there are slots. -/
theorem accept_all (sessionID : UINT64) {k : Nat} (room : k ≤ n) : ∃ s h,
    (iocp n).NotedSteps Given.note (fun _ _ _ => True) (Shared.boot n sessionID [], []) (s, h) ∧
      Accepting k s := by
  induction k with
  | zero => exact ⟨_, _, .refl, rfl, rfl, rfl, fun _ => rfl⟩
  | succ k ih =>
      obtain ⟨s, h, run, accepting⟩ := ih (Nat.le_of_succ_le room)
      obtain ⟨s', id, more, accepting'⟩ := accepting.next room h
      exact ⟨s', _, run.trans more, accepting'⟩

/-- A server for 65537 clients gives the last of them an ID that names another's
slot. -/
theorem session_ids_ambiguous :
    ¬ ∀ s h, (iocp 65537).NotedSteps Given.note (fun _ _ _ => True)
      (Shared.boot 65537 0 [], []) (s, h) → h.Unambiguous := by
  intro always
  have last : 65536 < 65537 := by decide
  obtain ⟨s, h, run, accepting⟩ := accept_all (n := 65537) 0 (Nat.le_of_lt last)
  obtain ⟨s', id, more, -⟩ := accepting.next last h
  have named := (always s' _ (run.trans more)).resolve _ id List.mem_cons_self
  rw [getSessionIndex_eq_mod] at named
  dsimp only at named
  omega

/-- The only slot of a server is used twice.  Its two sessions have different IDs,
and both IDs name it. -/
theorem session_ids_reused : ∃ s h,
    (iocp 1).NotedSteps Given.note (fun _ _ _ => True) (Shared.boot 1 0 [.worker], []) (s, h) ∧
      h = [(firstSlot, 0x2000000000000), (firstSlot, firstID)] ∧ h.Unambiguous := by
  have reached : ((iocp 1).runNoted Given.note (fun _ _ _ => True)
      (acceptOne ++ closeOne ++ acceptOne) (Shared.boot 1 0 [.worker], [])).map Prod.snd =
        some [(firstSlot, 0x2000000000000), (firstSlot, firstID)] := by
    decide +kernel
  obtain ⟨⟨s, h⟩, taken, given⟩ := Option.map_eq_some_iff.mp reached
  have run := Machine.NotedSteps.of_run taken
  refine ⟨s, h, run, given, (session_ids_iff (by decide) run).mpr ⟨fun i _ => ?_, ?_⟩⟩
  · omega
  · intro j k i before _ second
    have inside := (List.getElem?_eq_some_iff.mp second).1
    rw [List.length_map, show h.length = 2 from congrArg List.length given] at inside
    omega

end ChattingServer
