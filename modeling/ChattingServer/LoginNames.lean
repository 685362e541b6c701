import ChattingServer.Foundation.Terminated
import ChattingServer.Requests

/-!
# The names of a login request

A login request carries its two names as forty bytes each.  They are read out
of the request by `RedisThread`, written to the packet it makes of them, read
again by `CompleteLogin` and copied to the player by `wcscpy_s`, which ends the
process at a name without a terminator; nothing before it looks for one.
`login_stores_names_iff` says which requests are survived.
-/

namespace ChattingServer

/-- A terminator stands among the twenty places. -/
def Terminated (name : Vector WCHAR 20) : Prop := 0 ∈ name.toList

instance (name : Vector WCHAR 20) : Decidable (Terminated name) :=
  inferInstanceAs (Decidable (_ ∈ _))

/-- A name up to its terminator. -/
def text (name : Vector WCHAR 20) : List WCHAR := name.toList.takeWhile (· ≠ 0)

/-! ## The copy -/

theorem terminated_iff {name : Vector WCHAR 20} :
    Terminated name ↔ name.toList.findIdx (· == 0) < 20 := by
  have length : name.toList.length = 20 := name.length_toList
  have found : name.toList.findIdx (· == 0) < name.toList.length ↔
      ∃ c ∈ name.toList, (c == 0) = true := List.findIdx_lt_length
  rw [length] at found
  rw [found]
  simp [Terminated]

/-- The text of a name goes on before its terminator. -/
theorem reaches_le {name : Vector WCHAR 20} {i : Nat}
    (reaches : Reaches 0 name.toList i) (terminated : Terminated name) :
    i ≤ name.toList.findIdx (· == 0) := by
  by_contra past
  have inside : name.toList.findIdx (· == 0) < name.toList.length := by
    rw [name.length_toList]
    exact terminated_iff.mp terminated
  have here := reaches _ (Nat.lt_of_not_le past)
  rw [List.getD_eq_getElem _ _ inside] at here
  exact here (beq_iff_eq.mp (List.findIdx_getElem (w := inside)))

/-- A terminated name is copied. -/
theorem wcscpy_s_of_terminated {dest src : Vector WCHAR 20} (terminated : Terminated src) :
    ∃ copied, wcscpy_s dest src = some copied ∧ text copied = text src := by
  refine ⟨_, if_pos (terminated_iff.mp terminated), ?_⟩
  apply Matches.takeWhile_eq
  · intro i inside reaches
    have within := reaches_le reaches terminated
    rw [Vector.length_toList] at inside
    rw [List.getD_eq_getElem _ _ (by simpa using inside),
      List.getD_eq_getElem _ _ (by simpa using inside), Vector.getElem_toList,
      Vector.getElem_toList, Vector.getElem_ofFn, if_pos within]
    rfl
  · simp

/-- A name without a terminator is not. -/
theorem wcscpy_s_of_unterminated {dest src : Vector WCHAR 20} (unterminated : ¬ Terminated src) :
    wcscpy_s dest src = none :=
  if_neg fun short => unterminated (terminated_iff.mpr short)

/-! ## The fields of a packet -/

/-- A value in front of the unread payload is read. -/
theorem CPacket.readValue_of_data {p : CPacket} {k : Nat} (val found : BitVec (8 * k))
    {rest : List BYTE} (data : p.data = bytesOf found ++ rest) :
    ∃ q, p.readValue val = (found, q) ∧ q.data = rest := by
  have size : 8 * k / 8 = k := Nat.mul_div_cancel_left k (by decide)
  have length : (bytesOf found).length = 8 * k / 8 := length_bytesOf found
  have enough : 8 * k / 8 ≤ p.iUsingSize := by
    rw [← p.length_data, data, List.length_append, length]
    exact Nat.le_add_right _ _
  refine ⟨p.consume _ enough, ?_, ?_⟩
  · rw [p.readValue_of_le val enough, data, List.take_left' length, ofBytes_bytesOf]
  · rw [p.data_consume, data, List.drop_left' length]

/-- Bytes in front of the unread payload are copied out. -/
theorem CPacket.getData_of_data {p : CPacket} {size : Nat} {bytes rest : List BYTE}
    (data : p.data = bytes ++ rest) (length : bytes.length = size) :
    ∃ q, p.getData size = (some bytes, q) ∧ q.data = rest := by
  have enough : size ≤ p.iUsingSize := by
    rw [← p.length_data, data, List.length_append, length]
    exact Nat.le_add_right _ _
  refine ⟨p.consume _ enough, ?_, ?_⟩
  · rw [p.getData_of_le enough, data, List.take_left' length]
  · rw [p.data_consume, data, List.drop_left' length]

/-- Entries of one length laid end to end, from the `i`-th on. -/
theorem drop_flatMap {α β : Type} {f : α → List β} {k : Nat} (size : ∀ a, (f a).length = k)
    (xs : List α) (i : Nat) : (xs.flatMap f).drop (k * i) = (xs.drop i).flatMap f := by
  induction xs generalizing i with
  | nil => simp
  | cons x xs ih =>
      cases i with
      | zero => rfl
      | succ i =>
          rw [List.flatMap_cons, Nat.mul_succ, Nat.add_comm, ← List.drop_drop,
            List.drop_left' (size x), ih, List.drop_succ_cons]

/-- A name is determined by its bytes. -/
theorem nameOf_nameBytes (name : Vector WCHAR 20) : nameOf (nameBytes name) = name := by
  apply Vector.ext
  intro i inside
  have here : name.toList.drop i = name[i] :: name.toList.drop (i + 1) := by
    rw [List.drop_eq_getElem_cons (by simpa using inside)]
    simp
  have word : ((nameBytes name).drop (2 * i)).take 2 = bytesOf name[i] := by
    rw [nameBytes, drop_flatMap (k := 2) (fun x => length_bytesOf x), here, List.flatMap_cons,
      List.take_left' (i := 2) (length_bytesOf _)]
  rw [nameOf, Vector.getElem_ofFn, wordAt, word]
  exact ofBytes_bytesOf (k := 2) _

/-- The payload of a login request, as far as `CompleteLogin` reads it. -/
def loginBytes (account : INT64) (id nick : Vector WCHAR 20) : List BYTE :=
  bytesOf account ++ nameBytes id ++ nameBytes nick

/-- The reads that `RedisThread` and `CompleteLogin` both start with. -/
theorem CPacket.readLogin {p : CPacket} {account : INT64} {id nick : Vector WCHAR 20}
    {rest : List BYTE} (data : p.data = loginBytes account id nick ++ rest) :
    ∃ q r t, p.readValue (0 : INT64) = (account, q) ∧
      q.getData dfID_LEN = (some (nameBytes id), r) ∧
      r.getData dfNiCK_LEN = (some (nameBytes nick), t) := by
  rw [loginBytes, List.append_assoc, List.append_assoc] at data
  obtain ⟨q, no, data⟩ := CPacket.readValue_of_data (k := 8) 0 account data
  obtain ⟨r, first, data⟩ := CPacket.getData_of_data data (length_nameBytes id)
  obtain ⟨t, second, -⟩ := CPacket.getData_of_data data (length_nameBytes nick)
  exact ⟨q, r, t, no, first, second⟩

/-! ## The two threads -/

namespace ChatServer

variable {s s' : ChatServer} {sessionID : UINT64} {player : PlayerPtr} {packet : CPacket}
  {account : INT64} {id nick : Vector WCHAR 20}

/-- `Res_Login` always has its packet. -/
theorem resLogin_ok (randKey : BYTE) (fuel : Nat) (account : INT64) (status : BYTE) :
    ∃ res, resLogin randKey fuel account status = .ok res := by
  obtain ⟨p1, type, w1⟩ :=
    CPacket.written_alloc.writeValue fuel en_PACKET_CS_CHAT_RES_LOGIN (by decide)
  obtain ⟨p2, verdict, w2⟩ := w1.writeValue fuel status (by simp)
  obtain ⟨p3, no, -⟩ := w2.writeValue fuel account (by simp)
  refine ⟨p3.setEncodingCode randKey, ?_⟩
  unfold resLogin
  rw [type]
  dsimp only [bind, Except.bind]
  rw [verdict]
  dsimp only
  rw [no]
  rfl

/-- What a successful `CompleteLogin` does once it holds the player and its
packet is made. -/
def stores (s : ChatServer) (sessionID : UINT64) (player : PlayerPtr) (account : INT64)
    (id nick : Vector WCHAR 20) (res : CPacket) : ChatServer :=
  (({ s with accounts := Function.update s.accounts account (some sessionID) }.updatePlayer player
    fun p => { p with isLogined := true, accountNo := account, id := id, nick := nick }
  ).sendPacket sessionID res).releasePlayer player

theorem player_stores (s : ChatServer) (sessionID : UINT64) (player : PlayerPtr) (account : INT64)
    (id' nick' : Vector WCHAR 20) (res : CPacket) :
    (((s.stores sessionID player account id' nick' res).player player).accountNo = account ∧
      ((s.stores sessionID player account id' nick' res).player player).id = id' ∧
      ((s.stores sessionID player account id' nick' res).player player).nick = nick') := by
  have same := fun s : ChatServer => sameContent_releasePlayer s player
  refine ⟨?_, ?_, ?_⟩
  · exact ((same _).field Player.accountNo (fun _ => rfl) player).trans
      (by simp [sendPacket, updatePlayer])
  · exact ((same _).field Player.id (fun _ => rfl) player).trans
      (by simp [sendPacket, updatePlayer])
  · exact ((same _).field Player.nick (fun _ => rfl) player).trans
      (by simp [sendPacket, updatePlayer])

/-- A successful `CompleteLogin` of a player that is still there comes down to
the copies of the two names. -/
theorem completeLogin_of_attended (env : LoginEnv) (fuel : Nat) (h : s.Attended sessionID player)
    (own : (s.player player).sessionID = sessionID)
    (data : packet.data = loginBytes account id nick) :
    ∃ res, s.completeLogin env fuel sessionID packet true =
      (wcscpy_s ((s.addRefPlayer player).player player).id id).bind fun id =>
        (wcscpy_s ((s.addRefPlayer player).player player).nick nick).bind fun nick =>
          some (true, (s.addRefPlayer player).stores sessionID player account id nick res) := by
  have same := sameContent_addRefPlayer s player
  have session : ((s.addRefPlayer player).player player).sessionID = sessionID :=
    (same.field Player.sessionID (fun _ => rfl) player).trans own
  have staying : ((s.addRefPlayer player).player player).closing = false :=
    closing_addRefPlayer.trans h.staying
  have request : packet.data = loginBytes account id nick ++ [] := by simpa using data
  obtain ⟨q, r, t, no, first, second⟩ := CPacket.readLogin request
  obtain ⟨res, made⟩ := resLogin_ok env.randKey fuel account 1
  refine ⟨res, ?_⟩
  unfold completeLogin
  rw [acquirePlayer_of_attended h]
  dsimp only
  rw [if_neg (not_not.mpr session), if_neg (by rw [staying]; exact Bool.false_ne_true), no]
  dsimp only
  rw [first]
  dsimp only
  rw [second]
  dsimp only [getName]
  rw [nameOf_nameBytes, nameOf_nameBytes, if_pos rfl, made]
  rfl

/-- The packet `RedisThread` makes of a request says what the request says. -/
theorem redisThread_of_request (env : LoginEnv) (fuel : Nat) {jobs : List (UINT64 × CPacket)}
    {rest : List BYTE} (front : s.redisQ = (sessionID, packet) :: jobs)
    (data : packet.data = loginBytes account id nick ++ rest) :
    ∃ result, result.data = loginBytes account id nick ∧
      s.redisThread env fuel true =
        { s with redisQ := jobs }.completeLogin env fuel sessionID result true := by
  obtain ⟨q, r, t, no, first, second⟩ := CPacket.readLogin data
  obtain ⟨result, made, written⟩ := makeLoginResult_ok fuel account id nick
  refine ⟨result, written.data, ?_⟩
  unfold redisThread
  rw [front]
  dsimp only
  rw [no]
  dsimp only
  rw [first]
  dsimp only
  rw [second]
  dsimp only [getName]
  rw [nameOf_nameBytes, nameOf_nameBytes, made]
  rfl

/-- `Req_Login_Redis` has queued the request, and by the time `RedisThread`
comes to that job the session still has its player. -/
structure Awaits (s s' : ChatServer) (sessionID : UINT64) (player : PlayerPtr) (packet : CPacket) :
    Prop where
  turn : ∃ job jobs, (s.reqLoginRedis sessionID player packet).2.redisQ = s.redisQ ++ [job] ∧
    s'.redisQ = job :: jobs
  attended : s'.Attended sessionID player
  own : (s'.player player).sessionID = sessionID

/-- What is queued is the request. -/
theorem Awaits.front (awaits : Awaits s s' sessionID player packet) :
    ∃ jobs, s'.redisQ = (sessionID, packet) :: jobs := by
  obtain ⟨job, jobs, queued, front⟩ := awaits.turn
  refine ⟨jobs, front.trans ?_⟩
  have idle : s.redisQ ≠ s.redisQ ++ [job] := by simp
  unfold reqLoginRedis enqueueRedis at queued
  dsimp only at queued
  split_ifs at queued
  · exact absurd queued idle
  · exact absurd queued idle
  · exact absurd queued idle
  · rw [List.singleton_inj.mp (List.append_cancel_left queued)]
  · exact absurd queued idle

/-- `RedisThread` gets through a request whose key is found, and the player
carries the account and the names the request gave. -/
def StoresNames (s : ChatServer) (env : LoginEnv) (fuel : Nat) (player : PlayerPtr)
    (account : INT64) (id nick : Vector WCHAR 20) : Prop :=
  ∃ s', s.redisThread env fuel true = some (true, s') ∧
    (s'.player player).accountNo = account ∧
    text (s'.player player).id = text id ∧
    text (s'.player player).nick = text nick

/-- A name without a terminator ends the process. -/
theorem Awaits.redisThread_eq_none (awaits : Awaits s s' sessionID player packet) (env : LoginEnv)
    (fuel : Nat) {rest : List BYTE} (data : packet.data = loginBytes account id nick ++ rest)
    (unterminated : ¬ (Terminated id ∧ Terminated nick)) :
    s'.redisThread env fuel true = none := by
  obtain ⟨jobs, front⟩ := awaits.front
  obtain ⟨result, carried, redis⟩ := redisThread_of_request env fuel front data
  have attended : Attended { s' with redisQ := jobs } sessionID player :=
    ⟨awaits.attended.joined, awaits.attended.staying⟩
  obtain ⟨res, completes⟩ := completeLogin_of_attended env fuel attended awaits.own carried
  rw [redis, completes]
  by_cases first : Terminated id
  · obtain ⟨copied, copy, -⟩ := wcscpy_s_of_terminated first
    rw [copy, Option.bind_some,
      wcscpy_s_of_unterminated fun second => unterminated ⟨first, second⟩]
    rfl
  · rw [wcscpy_s_of_unterminated first]
    rfl

/-- **Login names.**  A request that `Req_Login_Redis` queued is stored with
the player it came for, its names up to their terminators, exactly when both
names have one. -/
theorem login_stores_names_iff (awaits : Awaits s s' sessionID player packet) (env : LoginEnv)
    (fuel : Nat) {clientKey : List BYTE}
    (data : packet.data = loginBytes account id nick ++ clientKey) :
    s'.StoresNames env fuel player account id nick ↔ Terminated id ∧ Terminated nick := by
  constructor
  · intro stores
    by_contra unterminated
    obtain ⟨after, returned, -⟩ := stores
    rw [awaits.redisThread_eq_none env fuel data unterminated] at returned
    cases returned
  · intro terminated
    obtain ⟨first, second⟩ := terminated
    obtain ⟨jobs, front⟩ := awaits.front
    obtain ⟨result, carried, redis⟩ := redisThread_of_request env fuel front data
    have attended : Attended { s' with redisQ := jobs } sessionID player :=
      ⟨awaits.attended.joined, awaits.attended.staying⟩
    obtain ⟨res, completes⟩ := completeLogin_of_attended env fuel attended awaits.own carried
    obtain ⟨id', copy, sameId⟩ := wcscpy_s_of_terminated first
    obtain ⟨nick', copy', sameNick⟩ := wcscpy_s_of_terminated second
    rw [copy, Option.bind_some, copy', Option.bind_some] at completes
    obtain ⟨no, idIs, nickIs⟩ := player_stores (addRefPlayer { s' with redisQ := jobs } player)
      sessionID player account id' nick' res
    exact ⟨_, redis.trans completes, no, by rw [idIs, sameId], by rw [nickIs, sameNick]⟩

section Client

variable (account : INT64) (id nick : Vector WCHAR 20)

/-- A request with a session key of zeros, behind its type. -/
def loginRequest : CPacket :=
  CPacket.alloc.extend (loginBytes account id nick ++ List.replicate dfSESSIONKEY_LEN 0) (by
    simp only [loginBytes, List.length_append, length_bytesOf, length_nameBytes,
      List.length_replicate]
    decide)

theorem data_loginRequest : (loginRequest account id nick).data =
    loginBytes account id nick ++ List.replicate dfSESSIONKEY_LEN 0 := by
  rw [loginRequest, CPacket.data_extend, CPacket.written_alloc.data, List.nil_append]

/-- The first client of a server logs in. -/
theorem awaits_loginRequest :
    Awaits (start.joinProc 0 7).2
      ((start.joinProc 0 7).2.reqLoginRedis 7 0 (loginRequest account id nick)).2 7 0
      (loginRequest account id nick) :=
  ⟨⟨(7, loginRequest account id nick), [], rfl, rfl⟩, ⟨rfl, rfl⟩, rfl⟩

end Client

/-- A name of these letters, with a terminator and letters behind it. -/
def terminated (letters : List WCHAR) : Vector WCHAR 20 :=
  Vector.ofFn fun i => (letters ++ [0]).getD i.val 0x7A

/-- The names "kim" and "Mina", with rubbish behind their terminators, are stored
as they were asked for. -/
theorem login_stores_names_letters :
    let id := terminated [0x6B, 0x69, 0x6D]
    let nick := terminated [0x4D, 0x69, 0x6E, 0x61]
    let found : LoginEnv := ⟨Vector.replicate 20 65, Vector.replicate 20 65, 0⟩
    text id = [0x6B, 0x69, 0x6D] ∧ text nick = [0x4D, 0x69, 0x6E, 0x61] ∧
      ((start.joinProc 0 7).2.reqLoginRedis 7 0 (loginRequest 1 id nick)).2.StoresNames found 0 0 1
        id nick :=
  ⟨by decide, by decide,
    (login_stores_names_iff (awaits_loginRequest _ _ _) _ 0 (data_loginRequest _ _ _)).mpr
      (by decide)⟩

/-- A request whose first name is twenty letters and no terminator. -/
def longName : CPacket := loginRequest 1 (Vector.replicate 20 65) (Vector.replicate 20 0)

/-- A login request with twenty letters and no terminator for its first name is queued,
and ends the process when `RedisThread` handles it. -/
theorem longName_ends_process :
    Awaits (start.joinProc 0 7).2 ((start.joinProc 0 7).2.reqLoginRedis 7 0 longName).2 7 0
      longName ∧
    ∀ env fuel,
      ((start.joinProc 0 7).2.reqLoginRedis 7 0 longName).2.redisThread env fuel true = none ∧
      ¬ ((start.joinProc 0 7).2.reqLoginRedis 7 0 longName).2.StoresNames env fuel 0 1
        (Vector.replicate 20 65) (Vector.replicate 20 0) := by
  have awaits := awaits_loginRequest 1 (Vector.replicate 20 65) (Vector.replicate 20 0)
  refine ⟨awaits, fun env fuel => ?_⟩
  have ends := awaits.redisThread_eq_none env fuel (data_loginRequest _ _ _) (by decide)
  refine ⟨ends, fun stores => ?_⟩
  obtain ⟨after, returned, -⟩ := stores
  have none := returned.symm.trans ends
  cases none

end ChatServer

end ChattingServer
