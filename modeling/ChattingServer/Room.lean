import ChattingServer.Foundation.Service
import ChattingServer.Protocol
import Mathlib.Data.List.Forall2

/-!
# The chat room

What the server is for, without packets, pointers, reference counts and sector
sets: members stand somewhere on a map, a store vouches for their logins one
after another, and what a member says goes to the members around.  `Room.step`
is one deed with its verdict.  Every message a member is told bears a card that
the store has vouched for, and a text its bearer has said (`Room.genuine_after`).
-/

namespace ChattingServer

/-- The account and the names that a member has logged in with. -/
structure Card where
  account : INT64
  id : List WCHAR
  nick : List WCHAR
  deriving DecidableEq

/-- Somebody who has joined and not left. -/
structure Member where
  heard : UINT64
  card : Option Card
  sector : Option (WORD × WORD)
  deriving DecidableEq

/-- What a member is told. -/
inductive Letter where
  | login (ok : Bool) (account : INT64)
  | moved (account : INT64) (x y : WORD)
  | said (card : Card) (text : List BYTE)
  deriving DecidableEq

/-- What a member asks for. -/
inductive Ask where
  | login (card : Card)
  | move (account : INT64) (x y : WORD)
  | say (account : INT64) (text : List BYTE)
  | heartbeat
  | other

inductive Deed where
  | join (now session : UINT64)
  | leave (session : UINT64)
  | ask (now session : UINT64) (ask : Ask)
  /-- The store has decided on the login that has waited longest. -/
  | verdict (ok : Bool)

/-- `mail` is all that a session has been told, oldest first. -/
structure Room where
  members : UINT64 → Option Member
  waiting : List (UINT64 × Card)
  mail : UINT64 → List Letter

/-- The sector is on the map. -/
def onMap (x y : WORD) : Bool := decide (x.toNat < dfSECTOR_MAX_X ∧ y.toNat < dfSECTOR_MAX_Y)

/-- One coordinate is next to another, or the same. -/
def adjacent (a b : WORD) : Bool := decide (a.toNat ≤ b.toNat + 1 ∧ b.toNat ≤ a.toNat + 1)

/-- A member that is logged in hears what is said in its sector and around. -/
def Member.hears (x y : WORD) (m : Member) : Bool :=
  m.card.isSome && m.sector.any fun cell => adjacent cell.1 x && adjacent cell.2 y

namespace Room

def empty : Room where
  members := fun _ => none
  waiting := []
  mail := fun _ => []

variable (room : Room)

def change (session : UINT64) (f : Member → Member) : Room :=
  { room with members := Function.update room.members session ((room.members session).map f) }

def tell (session : UINT64) (letter : Letter) : Room :=
  { room with mail := Function.update room.mail session (room.mail session ++ [letter]) }

/-- Everybody who hears a sector is told. -/
def post (x y : WORD) (letter : Letter) : Room :=
  { room with mail := fun session =>
      if (room.members session).any (·.hears x y) then room.mail session ++ [letter]
      else room.mail session }

/-- A login waits for the store, if there is room to wait. -/
def await (session : UINT64) (card : Card) : Room :=
  if room.waiting.length < redisCapacity then
    { room with waiting := room.waiting ++ [(session, card)] }
  else
    room

/-- The member's request, and whether it is granted. -/
def answer (session : UINT64) (member : Member) : Ask → Bool × Room
  | .login card => if member.card.isSome then (false, room) else (true, room.await session card)
  | .move account x y =>
      if onMap x y then
        (true, (room.change session fun m => { m with sector := some (x, y) }).tell session
          (.moved account x y))
      else
        (false, room)
  | .say _ text =>
      match member.card, member.sector with
      | some card, some (x, y) =>
          if text = [] then (false, room) else (true, room.post x y (.said card text))
      | _, _ => (false, room)
  | .heartbeat => (true, room)
  | .other => (false, room)

/-- The store's verdict reaches the session, if it is still there. -/
def settle (session : UINT64) (card : Card) (ok : Bool) : Room :=
  match room.members session with
  | none => room
  | some _ =>
      let room := if ok then room.change session fun m => { m with card := some card } else room
      room.tell session (.login ok card.account)

def step : Deed → Bool × Room
  | .join now session =>
      match room.members session with
      | some _ => (false, room)
      | none =>
          (true, { room with
            members := Function.update room.members session (some ⟨now, none, none⟩) })
  | .leave session => (true, { room with members := Function.update room.members session none })
  | .ask now session ask =>
      match room.members session with
      | none => (false, room)
      | some member =>
          (room.change session fun m => { m with heard := now }).answer session member ask
  | .verdict ok =>
      match room.waiting with
      | [] => (true, room)
      | (session, card) :: rest => (true, { room with waiting := rest }.settle session card ok)

/-- The room after a history. -/
def after (deeds : List Deed) : Room := (serve step empty deeds).2

theorem members_change_self (session : UINT64) (f : Member → Member) :
    (room.change session f).members session = (room.members session).map f :=
  Function.update_self ..

theorem members_change_of_ne {session other : UINT64} (different : other ≠ session)
    (f : Member → Member) : (room.change session f).members other = room.members other :=
  Function.update_of_ne different ..

theorem mail_tell_self (session : UINT64) (letter : Letter) :
    (room.tell session letter).mail session = room.mail session ++ [letter] :=
  Function.update_self ..

theorem mail_tell_of_ne {session other : UINT64} (different : other ≠ session) (letter : Letter) :
    (room.tell session letter).mail other = room.mail other :=
  Function.update_of_ne different ..

/-! ## Who is behind a message -/

/-- The session's client has asked to log in with the card, and the store has
agreed. -/
def Vouched (deeds : List Deed) (session : UINT64) (card : Card) : Prop :=
  ∃ earlier later now, deeds = earlier ++ .verdict true :: later ∧
    .ask now session (.login card) ∈ earlier ∧
    (after earlier).waiting.head? = some (session, card)

/-- The text was said by a member who held the card, and for whom the store had
vouched. -/
def Spoken (deeds : List Deed) (card : Card) (text : List BYTE) : Prop :=
  ∃ earlier later now session account,
    deeds = earlier ++ .ask now session (.say account text) :: later ∧
    ((after earlier).members session).bind Member.card = some card ∧
    Vouched earlier session card

variable {room} {deeds : List Deed} {session : UINT64} {card : Card} {text : List BYTE}

theorem Vouched.snoc (vouched : Vouched deeds session card) (d : Deed) :
    Vouched (deeds ++ [d]) session card := by
  obtain ⟨earlier, later, now, rfl, asked, front⟩ := vouched
  exact ⟨earlier, later ++ [d], now, by simp, asked, front⟩

theorem Spoken.snoc (spoken : Spoken deeds card text) (d : Deed) :
    Spoken (deeds ++ [d]) card text := by
  obtain ⟨earlier, later, now, session, account, rfl, held, vouched⟩ := spoken
  exact ⟨earlier, later ++ [d], now, session, account, by simp, held, vouched⟩

/-- What the members of a room, its mail and its waiting logins come from. -/
structure Genuine (deeds : List Deed) (room : Room) : Prop where
  waiting : ∀ entry ∈ room.waiting, ∃ now, .ask now entry.1 (.login entry.2) ∈ deeds
  cards : ∀ session m card, room.members session = some m → m.card = some card →
    Vouched deeds session card
  mail : ∀ session card text, .said card text ∈ room.mail session → Spoken deeds card text

namespace Genuine

variable {d : Deed} (genuine : Genuine deeds room)
include genuine

theorem snoc : Genuine (deeds ++ [d]) room where
  waiting := by
    intro entry member
    obtain ⟨now, asked⟩ := genuine.waiting entry member
    exact ⟨now, List.mem_append_left _ asked⟩
  cards := fun session m card joined holds => (genuine.cards session m card joined holds).snoc d
  mail := fun session card text member => (genuine.mail session card text member).snoc d

/-- A member may change in anything but its card. -/
theorem change {f : Member → Member} (keeps : ∀ m, (f m).card = m.card) :
    Genuine deeds (room.change session f) where
  waiting := genuine.waiting
  cards := by
    intro other m card joined holds
    rcases eq_or_ne other session with rfl | different
    · rw [members_change_self] at joined
      obtain ⟨before, present, rfl⟩ := Option.map_eq_some_iff.mp joined
      exact genuine.cards other before card present ((keeps before).symm.trans holds)
    · rw [members_change_of_ne room different] at joined
      exact genuine.cards other m card joined holds
  mail := genuine.mail

/-- A letter that is no message may be sent. -/
theorem tell {letter : Letter} (unsaid : ∀ card text, letter ≠ .said card text) :
    Genuine deeds (room.tell session letter) where
  waiting := genuine.waiting
  cards := genuine.cards
  mail := by
    intro other card text member
    rcases eq_or_ne other session with rfl | different
    · rw [mail_tell_self] at member
      rcases List.mem_append.mp member with old | new
      · exact genuine.mail other card text old
      · exact absurd (List.mem_singleton.mp new).symm (unsaid card text)
    · rw [mail_tell_of_ne room different] at member
      exact genuine.mail other card text member

theorem post {x y : WORD} (spoken : Spoken deeds card text) :
    Genuine deeds (room.post x y (.said card text)) where
  waiting := genuine.waiting
  cards := genuine.cards
  mail := by
    intro other card' text' member
    unfold Room.post at member
    dsimp only at member
    split at member
    · rcases List.mem_append.mp member with old | new
      · exact genuine.mail other card' text' old
      · cases List.mem_singleton.mp new
        exact spoken
    · exact genuine.mail other card' text' member

/-- What a client asks for. -/
theorem answer (here : room = after deeds) {now : UINT64} {member : Member}
    (joined : room.members session = some member) (ask : Ask) :
    Genuine (deeds ++ [.ask now session ask])
      ((room.change session fun m => { m with heard := now }).answer session member ask).2 := by
  have heard : Genuine deeds (room.change session fun m => { m with heard := now }) :=
    genuine.change fun _ => rfl
  have later := heard.snoc (d := .ask now session ask)
  cases ask with
  | login card =>
      simp only [Room.answer]
      split
      · exact later
      · unfold Room.await
        split
        · refine ⟨?_, later.cards, later.mail⟩
          intro entry member
          rcases List.mem_append.mp member with old | new
          · exact later.waiting entry old
          · cases List.mem_singleton.mp new
            exact ⟨now, by simp⟩
        · exact later
  | move account x y =>
      simp only [Room.answer]
      split
      · have moved : Genuine (deeds ++ [.ask now session (.move account x y)])
            ((room.change session fun m => { m with heard := now }).change session
              fun m => { m with sector := some (x, y) }) := later.change fun _ => rfl
        exact moved.tell fun _ _ same => Letter.noConfusion same
      · exact later
  | say account text =>
      simp only [Room.answer]
      split
      · rename_i card x y holds stands
        split
        · exact later
        · refine later.post ⟨deeds, [], now, session, account, rfl, ?_, ?_⟩
          · rw [← here, joined]
            exact holds
          · exact genuine.cards session member card joined holds
      · exact later
  | heartbeat => exact later
  | other => exact later

/-- What the store decides. -/
theorem settle {ok : Bool} (vouched : ok = true → Vouched deeds session card) :
    Genuine deeds (room.settle session card ok) := by
  unfold Room.settle
  split
  · exact genuine
  · cases ok with
    | false => exact genuine.tell fun _ _ same => Letter.noConfusion same
    | true =>
        have held : Genuine deeds (room.change session fun m => { m with card := some card }) := by
          refine ⟨genuine.waiting, ?_, genuine.mail⟩
          intro other m card' joined holds
          rcases eq_or_ne other session with rfl | different
          · rw [members_change_self] at joined
            obtain ⟨before, -, rfl⟩ := Option.map_eq_some_iff.mp joined
            cases holds
            exact vouched rfl
          · rw [members_change_of_ne room different] at joined
            exact genuine.cards other m card' joined holds
        exact held.tell fun _ _ same => Letter.noConfusion same

/-- Somebody comes or goes, and has no card. -/
theorem replace {member : Option Member} (cardless : ∀ m ∈ member, m.card = none) :
    Genuine deeds { room with members := Function.update room.members session member } where
  waiting := genuine.waiting
  cards := by
    intro other m card joined holds
    dsimp only at joined
    rcases eq_or_ne other session with rfl | different
    · rw [Function.update_self] at joined
      cases (cardless m joined).symm.trans holds
    · rw [Function.update_of_ne different] at joined
      exact genuine.cards other m card joined holds
  mail := genuine.mail

end Genuine

theorem genuine_empty : Genuine [] empty where
  waiting := fun _ member => absurd member List.not_mem_nil
  cards := nofun
  mail := fun _ _ _ member => absurd member List.not_mem_nil

/-- Each deed keeps to it. -/
theorem genuine_step {deeds : List Deed} (genuine : Genuine deeds (after deeds)) (d : Deed) :
    Genuine (deeds ++ [d]) ((after deeds).step d).2 := by
  have later := genuine.snoc (d := d)
  cases d with
  | join now session =>
      simp only [step]
      split
      · exact later
      · apply later.replace
        intro m same
        cases same
        rfl
  | leave session => exact later.replace nofun
  | ask now session ask =>
      simp only [step]
      split
      · exact later
      · rename_i member joined
        exact genuine.answer rfl joined ask
  | verdict ok =>
      simp only [step]
      split
      · exact later
      · rename_i session card rest front
        have left : Genuine (deeds ++ [.verdict ok]) { after deeds with waiting := rest } := by
          refine ⟨?_, later.cards, later.mail⟩
          intro entry member
          exact later.waiting entry (front ▸ List.mem_cons_of_mem _ member)
        apply left.settle
        intro granted
        obtain ⟨now, asked⟩ := genuine.waiting (session, card) (front ▸ List.mem_cons_self)
        exact ⟨deeds, [], now, by rw [granted], asked, by rw [front]; rfl⟩

/-- **Nobody is impersonated.** Every message in anybody's mail bears the card
of a client that had asked to log in with it, that the store had vouched for by
then, and that said the text afterwards. -/
theorem genuine_after (deeds : List Deed) : Genuine deeds (after deeds) :=
  serve_invariant (I := Genuine) genuine_empty (fun _ d genuine => genuine_step genuine d) deeds

end Room

end ChattingServer
