import ChattingServer.Handlers

/-!
# Accounts and who is logged in

`accounts` keeps one session for an account, and a login that completes puts
its own there whoever else is logged in.  `one_login_iff` says what that leaves
of one login an account: it holds along a history exactly as long as no login
completes for an account that another player is logged in with.
-/

namespace ChattingServer

namespace ChatServer

variable {s s' : ChatServer} {player : PlayerPtr} {sessionID : UINT64} {ok : Bool}

/-- No account is logged in with twice, and `accounts` leads from the account
of each logged-in player to its session. -/
structure OneLogin (s : ChatServer) : Prop where
  distinct : ∀ {id id' p p'}, s.players id = some p → s.players id' = some p' →
    (s.player p).isLogined = true → (s.player p').isLogined = true →
    (s.player p).accountNo = (s.player p').accountNo → p = p'
  listed : ∀ {id p}, s.players id = some p → (s.player p).isLogined = true →
    s.accounts (s.player p).accountNo = some (s.player p).sessionID

/-- Each logged-in session is in `accounts`. -/
def Registered (s : ChatServer) : Prop :=
  ∀ id p, s.players id = some p → (s.player p).isLogined = true →
    s.accounts (s.player p).accountNo = some id

theorem oneLogin_iff (orderly : Orderly s) : s.OneLogin ↔ s.Registered := by
  constructor
  · intro one id p joined logined
    rw [one.listed joined logined, orderly.session joined]
  · intro registered
    refine ⟨?_, ?_⟩
    · intro id id' p p' joined joined' logined logined' same
      have here := registered id p joined logined
      rw [same, registered id' p' joined' logined'] at here
      rw [Option.some.inj here, joined] at joined'
      exact Option.some.inj joined'
    · intro id p joined logined
      rw [registered id p joined logined, orderly.session joined]

/-- A login of a session that has joined, for an account another player is
logged in with. -/
def Taken (s : ChatServer) (sessionID : UINT64) (account : INT64) : Prop :=
  (∃ player, s.players sessionID = some player) ∧
    ∃ id p, id ≠ sessionID ∧ s.players id = some p ∧ (s.player p).isLogined = true ∧
      (s.player p).accountNo = account

/-- A handler that completes such a login. -/
def Takes (s : ChatServer) : Handler → Prop
  | .complete _ _ sessionID packet success =>
      success = true ∧ s.Taken sessionID (packet.readValue (0 : INT64)).1
  | .redis _ _ success =>
      ∃ job jobs, s.redisQ = job :: jobs ∧ success = true ∧
        s.Taken job.1 (job.2.readValue (0 : INT64)).1
  | _ => False

/-- Logins that are kept as they are, or end. -/
theorem Registered.of_fewer (registered : s.Registered)
    (fewer : ∀ id p, s'.players id = some p → (s'.player p).isLogined = true →
      s.players id = some p ∧ (s.player p).isLogined = true ∧
        (s'.player p).accountNo = (s.player p).accountNo ∧
        s'.accounts (s.player p).accountNo = s.accounts (s.player p).accountNo) :
    s'.Registered := by
  intro id p joined logined
  obtain ⟨before, was, same, entry⟩ := fewer id p joined logined
  rw [same, entry]
  exact registered id p before was

/-! ## One handler -/

theorem registered_joinProc (orderly : Orderly s) (registered : s.Registered)
    (now sessionID : UINT64) : (s.joinProc now sessionID).2.Registered := by
  refine registered.of_fewer fun id p mapped logined => ?_
  rcases joinProc_mapped orderly mapped with fresh | ⟨before, same⟩
  · rw [logined] at fresh
    cases fresh
  · rw [same] at logined ⊢
    refine ⟨before, logined, rfl, ?_⟩
    rw [accounts_joinProc orderly]

theorem registered_leaveProc (orderly : Orderly s) (registered : s.Registered)
    (sessionID : UINT64) : (s.leaveProc sessionID).2.Registered := by
  cases joined : s.players sessionID with
  | none =>
      rw [leaveProc_of_none joined]
      exact registered
  | some player =>
      rw [leaveProc_of_some orderly joined]
      refine registered.of_fewer fun id p mapped logined => ?_
      obtain ⟨before, same⟩ := left_stayed orderly joined mapped
      rw [same] at logined ⊢
      refine ⟨before, logined, rfl, ?_⟩
      unfold left
      dsimp only
      split
      · rename_i erased
        refine Function.update_of_ne ?_ ..
        intro account
        -- the entry that goes is the leaving session's own
        have entry := registered id p before logined
        rw [account, erased.2.2] at entry
        rw [players_left, Option.some.inj entry, Function.update_self] at mapped
        cases mapped
      · rfl

theorem Completes.registered (orderly : Orderly s) (registered : s.Registered) {account : INT64}
    {success : Bool} (completes : s.Completes sessionID account success s')
    (free : success = true → ¬ s.Taken sessionID account) : s'.Registered := by
  cases completes with
  | absent success absent => exact registered
  | failure joined res => exact registered
  | @success player joined id nick res =>
      intro other p mapped logined
      dsimp only at mapped logined ⊢
      rcases eq_or_ne p player with rfl | different
      · rw [player_updatePlayer_self, loggedIn, Function.update_self,
          orderly.unique joined mapped]
      · rw [player_updatePlayer_of_ne s different] at logined ⊢
        have elsewhere : other ≠ sessionID := by
          rintro rfl
          exact different (Option.some.inj (mapped.symm.trans joined))
        rw [Function.update_of_ne]
        · exact registered other p mapped logined
        · intro same
          exact free rfl ⟨⟨player, joined⟩, other, p, elsewhere, mapped, logined, same⟩

theorem Completes.not_oneLogin {account : INT64} (orderly : Orderly s)
    (completes : s.Completes sessionID account true s') (taken : s.Taken sessionID account) :
    ¬ s'.OneLogin := by
  obtain ⟨⟨player, joined⟩, id, p, elsewhere, mapped, logined, same⟩ := taken
  intro one
  cases completes with
  | absent success absent =>
      rw [absent] at joined
      cases joined
  | @success q joined' id' nick res =>
      rw [joined] at joined'
      cases joined'
      have different : p ≠ player := by
        rintro rfl
        exact elsewhere (orderly.unique mapped joined)
      have self := player_updatePlayer_self s player (loggedIn account id' nick)
      have other := player_updatePlayer_of_ne s different (loggedIn account id' nick)
      refine different (one.distinct mapped joined ?_ ?_ ?_)
      · exact (congrArg Player.isLogined other).trans logined
      · exact congrArg Player.isLogined self
      · exact ((congrArg Player.accountNo other).trans same).trans
          (congrArg Player.accountNo self).symm

/-- A request changes nobody's login. -/
theorem Receives.kept {env : Env} {packet : CPacket}
    (receives : s.Receives env sessionID packet ok s') :
    s'.players = s.players ∧ s'.accounts = s.accounts ∧
      ∀ p, (s'.player p).isLogined = (s.player p).isLogined ∧
        (s'.player p).accountNo = (s.player p).accountNo := by
  have update : ∀ (t : ChatServer) (player p : PlayerPtr) (f : Player → Player),
      (∀ q, (f q).isLogined = q.isLogined ∧ (f q).accountNo = q.accountNo) →
      ((t.updatePlayer player f).player p).isLogined = (t.player p).isLogined ∧
        ((t.updatePlayer player f).player p).accountNo = (t.player p).accountNo := by
    intro t player p f keeps
    rcases eq_or_ne p player with rfl | different
    · rw [player_updatePlayer_self]
      exact keeps _
    · rw [player_updatePlayer_of_ne t different]
      exact ⟨rfl, rfl⟩
  cases receives with
  | absent absent => exact ⟨rfl, rfl, fun _ => ⟨rfl, rfl⟩⟩
  | @stood player _ joined other redisQ sent =>
      exact ⟨rfl, rfl, fun p => update s player p _ fun _ => ⟨rfl, rfl⟩⟩
  | @went player joined type inside res =>
      obtain ⟨sector, same⟩ := (s.updatePlayer player (heard env.now)).moved_eq player
        (moveWords env (packet.readValue (0 : WORD)).2.data).1
        (moveWords env (packet.readValue (0 : WORD)).2.data).2 env.now
      rw [same]
      refine ⟨rfl, rfl, fun p => ?_⟩
      have first := update s player p (heard env.now) fun _ => ⟨rfl, rfl⟩
      have second := update (s.updatePlayer player (heard env.now)) player p
        (fun q => { q with
          sectorX := (moveWords env (packet.readValue (0 : WORD)).2.data).1
          sectorY := (moveWords env (packet.readValue (0 : WORD)).2.data).2
          lastRecvTime := env.now }) fun _ => ⟨rfl, rfl⟩
      exact ⟨second.1.trans first.1, second.2.trans first.2⟩

theorem Receives.registered (registered : s.Registered) {env : Env} {packet : CPacket}
    (receives : s.Receives env sessionID packet ok s') : s'.Registered := by
  obtain ⟨players, accounts, same⟩ := receives.kept
  refine registered.of_fewer fun id p mapped logined => ?_
  rw [players] at mapped
  rw [(same p).1] at logined
  exact ⟨mapped, logined, (same p).2, congrFun accounts _⟩

/-- The account of a result is the one of the request it was made for. -/
theorem account_makeLoginResult {fuel : Nat} {account : INT64} {id nick : Vector WCHAR 20}
    {result : CPacket} (made : (makeLoginResult fuel account id nick).toOption = some result) :
    (result.readValue (0 : INT64)).1 = account := by
  obtain ⟨packet, built, written⟩ := makeLoginResult_ok fuel account id nick
  rw [built] at made
  cases made
  have size : (bytesOf account).length = 8 := length_bytesOf account
  have enough : 8 ≤ result.data.length := by
    rw [written.data, List.append_assoc, List.length_append, size]
    exact Nat.le_add_right ..
  rw [(result.readValue_eq (0 : INT64)).1, readBytes_of_le enough, written.data, List.append_assoc,
    List.take_left' size]
  exact ofBytes_bytesOf (k := 8) account

/-- What a handler does to the logins. -/
theorem registered_exec (orderly : Orderly s) (registered : s.Registered) {handler : Handler}
    (done : handler.exec s = some (ok, s')) (free : ¬ s.Takes handler) : s'.Registered := by
  cases handler with
  | join now sessionID =>
      have result := registered_joinProc orderly registered now sessionID
      rw [Option.some.inj done] at result
      exact result
  | leave sessionID =>
      have result := registered_leaveProc orderly registered sessionID
      rw [Option.some.inj done] at result
      exact result
  | recv env fuel sessionID packet =>
      exact (recvProc_cases orderly (of_toOption done)).registered registered
  | complete env fuel sessionID packet success =>
      exact (completeLogin_cases orderly done).2.registered orderly registered
        fun won taken => free ⟨won, taken⟩
  | redis env fuel success =>
      rw [Handler.exec, redisThread] at done
      cases waiting : s.redisQ with
      | nil =>
          rw [waiting] at done
          cases done
          exact registered
      | cons job jobs =>
          rw [waiting] at done
          obtain ⟨result, made, done⟩ := Option.bind_eq_some_iff.mp done
          have completes := (completeLogin_cases (orderly.beside s.accounts jobs s.sent) done).2
          rw [account_makeLoginResult made] at completes
          exact completes.registered (orderly.beside s.accounts jobs s.sent) registered
            fun won taken => free ⟨job, jobs, waiting, won, taken⟩

theorem not_oneLogin_exec (orderly : Orderly s) {handler : Handler}
    (done : handler.exec s = some (ok, s')) (takes : s.Takes handler) : ¬ s'.OneLogin := by
  cases handler with
  | join now sessionID => cases takes
  | leave sessionID => cases takes
  | recv env fuel sessionID packet => cases takes
  | complete env fuel sessionID packet success =>
      obtain ⟨rfl, taken⟩ := takes
      exact (completeLogin_cases orderly done).2.not_oneLogin orderly taken
  | redis env fuel success =>
      obtain ⟨job, jobs, waiting, rfl, taken⟩ := takes
      rw [Handler.exec, redisThread, waiting] at done
      obtain ⟨result, made, done⟩ := Option.bind_eq_some_iff.mp done
      have completes := (completeLogin_cases (orderly.beside s.accounts jobs s.sent) done).2
      rw [account_makeLoginResult made] at completes
      exact completes.not_oneLogin (orderly.beside s.accounts jobs s.sent) taken

end ChatServer

/-! ## Histories -/

theorem run_append (past rest : List Handler) (p : ChatServer × Roster) :
    run (past ++ rest) p = (run past p).bind (run rest) := by
  induction past generalizing p with
  | nil => rfl
  | cons handler past ih =>
      rw [List.cons_append, run, run, Option.bind_assoc]
      exact Option.bind_congr fun next _ => ih _

/-- The state before the last handler of a history, and that handler. -/
theorem Reached.last {past : List Handler} {handler : Handler} {s : ChatServer} {roster : Roster}
    (reached : Reached (past ++ [handler]) s roster) :
    ∃ t r ok, Reached past t r ∧ handler.exec t = some (ok, s) := by
  rw [Reached, run_append] at reached
  obtain ⟨⟨t, r⟩, before, done⟩ := Option.bind_eq_some_iff.mp reached
  obtain ⟨⟨ok, next⟩, step, finish⟩ := Option.bind_eq_some_iff.mp done
  cases finish
  exact ⟨t, r, ok, before, step⟩

theorem Reached.split {past rest : List Handler} {s : ChatServer} {roster : Roster}
    (reached : Reached (past ++ rest) s roster) : ∃ t r, Reached past t r := by
  rw [Reached, run_append] at reached
  obtain ⟨⟨t, r⟩, before, -⟩ := Option.bind_eq_some_iff.mp reached
  exact ⟨t, r, before⟩

/-- No login of a history completes for an account another player is logged in
with at that time. -/
def NeverTaken (history : List Handler) : Prop :=
  ∀ past handler rest, history = past ++ handler :: rest →
    ∀ t r, Reached past t r → ¬ t.Takes handler

theorem registered_of_neverTaken {history : List Handler} (never : NeverTaken history)
    {past rest : List Handler} (parts : history = past ++ rest) {t : ChatServer} {r : Roster}
    (reached : Reached past t r) : t.Registered := by
  induction past using List.reverseRecOn generalizing rest t r with
  | nil =>
      cases reached
      intro id p joined
      cases joined
  | append_singleton past handler ih =>
      obtain ⟨before, r', ok, earlier, step⟩ := reached.last
      rw [List.append_assoc, List.singleton_append] at parts
      exact ChatServer.registered_exec earlier.orderly.1 (ih parts earlier) step
        (never past handler rest parts before r' earlier)

/-- Along a history there is one login for each account exactly as long as no
login completes for an account that is logged in with. -/
theorem one_login_iff {history : List Handler} {s : ChatServer} {roster : Roster}
    (reached : Reached history s roster) :
    (∀ past rest, history = past ++ rest → ∀ t r, Reached past t r → t.OneLogin) ↔
      NeverTaken history := by
  constructor
  · intro always past handler rest parts t r here takes
    have parts' : history = (past ++ [handler]) ++ rest := by
      rw [parts, List.append_assoc, List.singleton_append]
    obtain ⟨t', r', there⟩ := (parts' ▸ reached).split
    obtain ⟨before, r'', ok, earlier, step⟩ := there.last
    cases Option.some.inj (here.symm.trans earlier)
    exact ChatServer.not_oneLogin_exec earlier.orderly.1 step takes
      (always _ rest parts' t' r' there)
  · intro never past rest parts t r here
    exact (ChatServer.oneLogin_iff here.orderly.1).mpr (registered_of_neverTaken never parts here)

/-- Two sessions that log in with one account. -/
def sharing : List Handler :=
  let env : Env := ⟨0, 0, 0, 0, fun _ => 0⟩
  let found : LoginEnv := ⟨Vector.replicate 20 0, Vector.replicate 20 0, 0⟩
  let login : CPacket := CPacket.received 0 (bytesOf en_PACKET_CS_CHAT_REQ_LOGIN ++
    bytesOf (7 : INT64) ++ List.replicate 144 0)
  [.join 0 1, .join 0 2, .recv env 0 1 login, .recv env 0 2 login, .redis found 0 true,
    .redis found 0 true]

/-- When both of two logins with one account have been completed, one account belongs to
two sessions. -/
theorem one_login_shared :
    ¬ ∀ history s roster, Reached history s roster → s.OneLogin := by
  intro all
  have both : (run sharing (ChatServer.start, fun _ => none)).map (fun p =>
      (p.1.players 1, p.1.players 2, (p.1.player 0).isLogined, (p.1.player 1).isLogined,
        (p.1.player 0).accountNo, (p.1.player 1).accountNo)) =
      some (some 0, some 1, true, true, 7, 7) := by
    decide +kernel
  obtain ⟨⟨s, roster⟩, reached, facts⟩ := Option.map_eq_some_iff.mp both
  simp only [Prod.mk.injEq] at facts
  obtain ⟨joined, joined', logined, logined', account, account'⟩ := facts
  have same := (all sharing s roster reached).distinct joined joined' logined logined'
    (account.trans account'.symm)
  exact absurd same (by decide)

/-- Of two sessions that ask for one account the second fails to log in and leaves, so
the account belongs to the first one throughout. -/
theorem one_login_alone : ∃ s roster, ∃ history : List Handler,
    history = sharing.take 5 ++ [.redis ⟨Vector.replicate 20 0, Vector.replicate 20 0, 0⟩ 0 false,
      .leave 2] ∧
    Reached history s roster ∧
    ((∀ past rest, history = past ++ rest → ∀ t r, Reached past t r → t.OneLogin) ↔
      NeverTaken history) := by
  have ran : (run (sharing.take 5 ++ [.redis ⟨Vector.replicate 20 0, Vector.replicate 20 0, 0⟩ 0
      false, .leave 2]) (ChatServer.start, fun _ => none)).isSome = true := by
    decide +kernel
  obtain ⟨⟨s, roster⟩, reached⟩ := Option.isSome_iff_exists.mp ran
  exact ⟨s, roster, _, rfl, reached, one_login_iff reached⟩

end ChattingServer
