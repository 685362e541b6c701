import ChattingServer.ChatServer

/-!
# The verdict on a login

`RedisThread` stores the session key of a request under its account before it
asks the store for that key, so it finds whatever key a client sends.  The
store answers as if nothing had been stored exactly for requests whose key was
there already (`login_authenticates_iff`).
-/

namespace ChattingServer

/-- What `get` replies. -/
inductive Reply where
  | string (value : List BYTE)
  | other

/-- Redis and its client: `set`, and `get`, each with its `sync_commit`. -/
structure Redis (Store : Type) where
  set : Store → String → List BYTE → Store
  get : Store → String → Reply

/-- What is set is what one gets, and nothing else changes. -/
structure Redis.Keeps {Store : Type} (redis : Redis Store) : Prop where
  get_set : ∀ store key value, redis.get (redis.set store key value) key = .string value
  get_set_of_ne : ∀ store key value other, other ≠ key →
    redis.get (redis.set store key value) other = redis.get store other

/-- `_i64toa_s` to base 10. -/
def i64toa (value : INT64) : String := toString value.toInt

/-- `GetData` into `char clientKey[dfSESSIONKEY_LEN]{}`. -/
def getClientKey : Option (List BYTE) → List BYTE
  | none => List.replicate dfSESSIONKEY_LEN 0
  | some bytes => bytes

/-- The key of the store that a login job asks for, and the session key it
carries. -/
def loginKeys (packet : CPacket) : String × List BYTE :=
  let (account, packet) := packet.readValue (0 : INT64)
  let (_, packet) := packet.getData dfID_LEN
  let (_, packet) := packet.getData dfNiCK_LEN
  (i64toa account, getClientKey (packet.getData dfSESSIONKEY_LEN).1)

section Jobs

variable {Store : Type} (redis : Redis Store)

/-- The callback given to `get`. -/
def isKey (keyCopy : List BYTE) : Reply → Bool
  | .string v => decide (v.length = keyCopy.length) && decide (v = keyCopy)
  | .other => false

/-- What a round of `RedisThread` finds for its job and passes to
`CompleteLogin`, and the store it leaves. -/
def loginVerdict (store : Store) (packet : CPacket) : Bool × Store :=
  let (redisKey, clientKey) := loginKeys packet
  let store := redis.set store redisKey clientKey
  let keyCopy := clientKey
  (isKey keyCopy (redis.get store redisKey), store)

/-- The store after some jobs. -/
def afterJobs (store : Store) (jobs : List CPacket) : Store :=
  jobs.foldl (fun store job => (loginVerdict redis store job).2) store

/-- The store maps the account of the job to its session key. -/
def Registered (store : Store) (job : CPacket) : Prop :=
  redis.get store (loginKeys job).1 = .string (loginKeys job).2

/-- Each job is a success exactly when it is registered, and leaves the store
as it was. -/
def Authenticates : Store → List CPacket → Prop
  | _, [] => True
  | store, job :: jobs =>
      ((loginVerdict redis store job).1 = true ↔ Registered redis store job) ∧
      (∀ key, redis.get (loginVerdict redis store job).2 key = redis.get store key) ∧
      Authenticates (loginVerdict redis store job).2 jobs

variable {redis}

theorem isKey_self (keyCopy : List BYTE) : isKey keyCopy (.string keyCopy) = true := by
  rw [isKey, decide_eq_true rfl, decide_eq_true rfl]
  rfl

section Keeps

variable (keeps : redis.Keeps)
include keeps

/-- Whoever asks is let in. -/
theorem loginVerdict_fst (store : Store) (job : CPacket) :
    (loginVerdict redis store job).1 = true := by
  show isKey (loginKeys job).2 (redis.get
    (redis.set store (loginKeys job).1 (loginKeys job).2) (loginKeys job).1) = true
  rw [keeps.get_set, isKey_self]

theorem get_loginVerdict_iff (store : Store) (job : CPacket) :
    (∀ key, redis.get (loginVerdict redis store job).2 key = redis.get store key) ↔
      Registered redis store job := by
  have stored : (loginVerdict redis store job).2 =
      redis.set store (loginKeys job).1 (loginKeys job).2 := rfl
  rw [stored]
  constructor
  · intro same
    exact (same _).symm.trans (keeps.get_set _ _ _)
  · intro registered key
    rcases eq_or_ne key (loginKeys job).1 with rfl | other
    · exact (keeps.get_set _ _ _).trans registered.symm
    · exact keeps.get_set_of_ne _ _ _ _ other

theorem authenticates_iff (jobs : List CPacket) : ∀ store : Store,
    Authenticates redis store jobs ↔ ∀ job ∈ jobs, Registered redis store job := by
  induction jobs with
  | nil => exact fun _ => iff_of_true trivial nofun
  | cons job jobs ih =>
      intro store
      have verdict := loginVerdict_fst keeps store job
      have same := get_loginVerdict_iff keeps store job
      rw [Authenticates, ih, List.forall_mem_cons, same]
      constructor
      · rintro ⟨-, registered, rest⟩
        refine ⟨registered, fun job' member => ?_⟩
        have later := rest job' member
        rw [Registered, same.mpr registered] at later
        exact later
      · rintro ⟨registered, rest⟩
        refine ⟨iff_of_true verdict registered, registered, fun job' member => ?_⟩
        rw [Registered, same.mpr registered]
        exact rest job' member

end Keeps

end Jobs

/-- **Who is let in.**  A run of login jobs authenticates against the store
exactly when the store maps the account of each to its session key from the
start; and the verdicts depend on nothing. -/
theorem login_authenticates_iff {Store : Type} (redis : Redis Store) (keeps : redis.Keeps)
    (store : Store) (jobs : List CPacket) :
    (Authenticates redis store jobs ↔ ∀ job ∈ jobs, Registered redis store job) ∧
    ∀ (store' : Store) (earlier earlier' : List CPacket) (job : CPacket),
      redis.get store (loginKeys job).1 = redis.get store' (loginKeys job).1 →
      (loginVerdict redis (afterJobs redis store earlier) job).1 =
        (loginVerdict redis (afterJobs redis store' earlier') job).1 := by
  refine ⟨authenticates_iff keeps jobs store, ?_⟩
  intro store' earlier earlier' job _
  rw [loginVerdict_fst keeps, loginVerdict_fst keeps]

/-- A store of strings. -/
def plainRedis : Redis (String → Reply) where
  set store key value := Function.update store key (.string value)
  get store key := store key

theorem plainRedis_keeps : plainRedis.Keeps where
  get_set _ _ _ := Function.update_self ..
  get_set_of_ne _ _ _ _ other := Function.update_of_ne other ..

/-- A login job for account 7: no name, and a key of sixty-four `A`s. -/
def loginJob : CPacket :=
  CPacket.alloc.extend (bytesOf (7 : INT64) ++ List.replicate 80 0 ++ List.replicate 64 0x41)
    (by decide +kernel)

/-- In a store that nobody is registered in, the login of account 7 succeeds. -/
theorem login_unregistered : ¬ ∀ (store : String → Reply) (jobs : List CPacket),
    Authenticates plainRedis store jobs := by
  intro always
  have registered : Registered plainRedis (fun _ => .other) loginJob :=
    (always _ [loginJob]).1.mp (loginVerdict_fst plainRedis_keeps _ _)
  exact Reply.noConfusion registered

/-- A store that knows the account of one job only. -/
def onlyKnows (job : CPacket) : String → Reply := fun key =>
  if key = (loginKeys job).1 then .string (loginKeys job).2 else .other

theorem registered_onlyKnows (job : CPacket) : Registered plainRedis (onlyKnows job) job :=
  if_pos rfl

/-- In a store that knows account 7 with the key of the job, the login of account 7
authenticates. -/
theorem login_registered : Authenticates plainRedis (onlyKnows loginJob) [loginJob] := by
  refine (login_authenticates_iff plainRedis plainRedis_keeps _ _).1.mpr fun job member => ?_
  rw [List.mem_singleton.mp member]
  exact registered_onlyKnows loginJob

end ChattingServer
