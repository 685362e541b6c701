import ChattingServer.Framing
import ChattingServer.Rejection
import ChattingServer.RoomRefinement

/-!
# From the wire to the room

The server as its clients meet it: bytes arrive on the connections, cut anyhow
and in any order between them, `RecvComplete` makes packets of them and
`RecvProc` handles the packets.  An `Exchange` is what that amounts to: a room,
and for each connection the bytes that do not make a request yet.  The server
does what the exchange does (`exchange_refinement`), also where a client is
turned down or sends what is no frame; frames made by `SetEncodingCode` are read
as the requests they were made of (`reads_frames`).
-/

namespace ChattingServer

open CPacket Segmentation

/-! ## What bytes ask for -/

/-- The requests that some bytes make, and the bytes left over: none where they
go on with what is no frame. -/
inductive Reads : List BYTE → List Ask → Option (List BYTE) → Prop
  | part {bytes : List BYTE} (front : Front.of bytes = .part) : Reads bytes [] (some bytes)
  | bad {bytes : List BYTE} (front : Front.of bytes = .bad) : Reads bytes [] none
  | ask {bytes rest : List BYTE} {packet : CPacket} {ask : Ask} {asks : List Ask}
      {left : Option (List BYTE)} (front : Front.of bytes = .frame packet rest)
      (encodes : ask.Encodes packet.data) (later : Reads rest asks left) :
      Reads bytes (ask :: asks) left

/-- Bytes make one list of requests. -/
theorem Reads.unique {bytes : List BYTE} {asks asks' : List Ask} {left left' : Option (List BYTE)}
    (first : Reads bytes asks left) (second : Reads bytes asks' left') :
    asks = asks' ∧ left = left' := by
  induction first generalizing asks' with
  | part front =>
      cases second with
      | part _ => exact ⟨rfl, rfl⟩
      | bad front' => cases front.symm.trans front'
      | ask front' _ _ => cases front.symm.trans front'
  | bad front =>
      cases second with
      | part front' => cases front.symm.trans front'
      | bad _ => exact ⟨rfl, rfl⟩
      | ask front' _ _ => cases front.symm.trans front'
  | ask front encodes _ ih =>
      cases second with
      | part front' => cases front.symm.trans front'
      | bad front' => cases front.symm.trans front'
      | ask front' encodes' later' =>
          cases front.symm.trans front'
          obtain ⟨rfl, same⟩ := ih later'
          rw [encodes.unique encodes', same]
          exact ⟨rfl, rfl⟩

/-- A frame of `SetEncodingCode` in front of other bytes. -/
theorem front_encodedFrame (randKey : BYTE) {payload : List BYTE} (rest : List BYTE)
    (nonempty : 1 ≤ payload.length) (fits : payload.length ≤ 507) :
    ∃ packet, Front.of (encodedFrame randKey payload ++ rest) = .frame packet rest ∧
      packet.data = payload := by
  have header : Front.header (encodedFrame randKey payload ++ rest) =
      encodedHeader randKey payload := by
    rw [Front.header, encodedFrame, List.append_assoc,
      List.take_left' (PacketHeader.length_bytes _), PacketHeader.at_write]
  have len := len_encodedHeader randKey fits
  have body : Front.payload (encodedFrame randKey payload ++ rest) =
      encodeLoop randKey 0 0 0 payload := by
    rw [Front.payload, header, len, encodedFrame, List.append_assoc,
      List.drop_left' (PacketHeader.length_bytes _), List.take_left' (by simp)]
  have filled : Front.filled (encodedFrame randKey payload ++ rest) =
      CPacket.alloc.clear.place (encodedHeader randKey payload).bytes
        (encodeLoop randKey 0 0 0 payload) := by
    rw [Front.filled, header, body, len, place, length_encodeLoop]
  obtain ⟨decoded, data⟩ := setDecodingCode_encodedFrame CPacket.alloc.clear randKey payload
    rfl rfl (Nat.le_trans fits (by decide))
  have code : (encodedHeader randKey payload).code = PACKET_CODE := rfl
  have nonzero : (encodedHeader randKey payload).len ≠ 0 := by
    intro zero
    rw [zero] at len
    simp at len
    omega
  have length : (encodedFrame randKey payload ++ rest).length =
      MESSAGE_HEADER_LEN + payload.length + rest.length := by
    rw [List.length_append, length_encodedFrame]
  refine ⟨_, ?_, data⟩
  unfold Front.of
  rw [header, body, filled, len, length, length_encodeLoop, if_neg (by omega),
    if_neg (not_not.mpr code), if_neg nonzero, if_neg (by omega), if_neg (by omega),
    if_neg (by rw [decoded]; exact Bool.noConfusion), List.drop_left' (length_encodedFrame _ _)]

/-- A part of such a frame. -/
theorem front_partOf (randKey : BYTE) {payload part : List BYTE} (nonempty : 1 ≤ payload.length)
    (fits : payload.length ≤ 507) (partOf : PartOf part (encodedFrame randKey payload)) :
    Front.of part = .part := by
  obtain ⟨⟨rest, whole⟩, short⟩ := partOf
  obtain ⟨packet, front, -⟩ := front_encodedFrame randKey [] nonempty fits
  rw [List.append_nil] at front
  by_contra complete
  have same := Front.of_append rest complete
  rw [whole, front] at same
  cases before : Front.of part with
  | part => exact complete before
  | bad => rw [before] at same; cases same
  | overrun => rw [before] at same; cases same
  | frame packet' rest' =>
      rw [before] at same
      have none := (List.append_eq_nil_iff.mp (Front.frame.inj same).2.symm).2
      rw [none, List.append_nil] at whole
      rw [whole] at short
      exact Nat.lt_irrefl _ short

/-- A client's request: the packet that asks for something, and the key drawn
for it. -/
structure ClientRequest where
  packet : CPacket
  randKey : BYTE
  ask : Ask
  sendable : packet.Sendable
  encodes : ask.Encodes packet.data

def ClientRequest.wire (r : ClientRequest) : List BYTE := sentWire (r.packet, r.randKey)

/-- **What a client sends is read as it was meant.** -/
theorem reads_requests (last : ClientRequest) {part : List BYTE} (partOf : PartOf part last.wire)
    (requests : List ClientRequest) :
    Reads ((requests.map ClientRequest.wire).flatten ++ part) (requests.map ClientRequest.ask)
      (some part) := by
  have nonempty := fun r : ClientRequest => r.packet.length_data.symm ▸ r.sendable.nonempty
  have fits := fun r : ClientRequest => r.packet.length_data.symm ▸ r.sendable.fits
  induction requests with
  | nil =>
      rw [ClientRequest.wire, last.sendable.sentWire_eq] at partOf
      exact .part (front_partOf last.randKey (nonempty last) (fits last) partOf)
  | cons r requests ih =>
      obtain ⟨packet, front, data⟩ := front_encodedFrame r.randKey
        ((requests.map ClientRequest.wire).flatten ++ part) (nonempty r) (fits r)
      rw [List.map_cons, List.flatten_cons, List.append_assoc, ClientRequest.wire,
        r.sendable.sentWire_eq, List.map_cons]
      exact .ask front (data ▸ r.encodes) ih

/-! ## One connection -/

namespace Receiver

variable {σ τ : Type} {recvProc : σ → CPacket → Bool × σ} {spec : τ → Ask → Bool × τ}
  {Related : σ → τ → Prop}

/-- `RecvProc` answers requests as a specification does. -/
def Answers (recvProc : σ → CPacket → Bool × σ) (spec : τ → Ask → Bool × τ)
    (Related : σ → τ → Prop) : Prop :=
  ∀ app t packet ask, Related app t → ask.Encodes packet.data →
    (recvProc app packet).1 = (spec t ask).1 ∧ Related (recvProc app packet).2 (spec t ask).2

/-- A connection with these bytes unread, or none that is read from. -/
def Line (s : Receiver σ) : Option (List BYTE) → Prop
  | none => s.posted = false
  | some kept => s.posted = true ∧ s.isReleased = false ∧ s.recvBuf.iBufSize = BUF_SIZE ∧
      s.recvBuf.content = kept

/-- The loop of `RecvComplete` on bytes that make requests. -/
theorem recvLoop_reads (answers : Answers recvProc spec Related) {bytes : List BYTE}
    {asks : List Ask} {left : Option (List BYTE)} (reads : Reads bytes asks left) :
    ∀ {fuel : Nat} {s s' : Receiver σ} {t : τ}, s.posted = false →
      s.recvBuf.iBufSize = BUF_SIZE → s.recvBuf.content = bytes → Related s.app t →
      s.recvLoop recvProc fuel = some s' →
      Related s'.app (serve spec t asks).2 ∧
        s'.Line (if !s.isReleased && (serve spec t asks).1.all id then left else none) := by
  induction reads with
  | @part bytes front =>
      intro fuel s s' t idle size content related run
      have round := s.recvRound_eq_of_front recvProc
      rw [Receiver.front, content, front] at round
      cases fuel with
      | zero => cases run
      | succ fuel =>
          rw [recvLoop, round] at run
          cases run
          cases live : s.isReleased with
          | true =>
              rw [leaveLoop, if_pos live]
              exact ⟨related, idle⟩
          | false =>
              rw [leaveLoop_of_live live]
              exact ⟨related, rfl, live, size, content⟩
  | @bad bytes front =>
      intro fuel s s' t idle size content related run
      have round := s.recvRound_eq_of_front recvProc
      rw [Receiver.front, content, front] at round
      obtain ⟨r, round, app, posted, -⟩ := round
      cases fuel with
      | zero => cases run
      | succ fuel =>
          rw [recvLoop, round] at run
          cases run
          rw [ite_self]
          exact ⟨app.symm ▸ related, posted.trans idle⟩
  | @ask bytes rest packet ask asks left front encodes later ih =>
      intro fuel s s' t idle size content related run
      have round := s.recvRound_eq_of_front recvProc
      rw [Receiver.front, content, front] at round
      obtain ⟨round, content'⟩ := round
      cases fuel with
      | zero => cases run
      | succ fuel =>
          rw [recvLoop, round] at run
          obtain ⟨verdict, related'⟩ := answers s.app t packet ask related encodes
          have idle' : (s.takeFrame.onRecv recvProc packet).posted = false := by
            rw [posted_onRecv, posted_takeFrame, idle]
          have size' : (s.takeFrame.onRecv recvProc packet).recvBuf.iBufSize = BUF_SIZE := by
            rw [recvBuf_onRecv]
            exact size
          have after : Related (s.takeFrame.onRecv recvProc packet).app (spec t ask).2 := by
            rw [app_onRecv, app_takeFrame]
            exact related'
          obtain ⟨last, line⟩ := ih idle' size' (by rw [recvBuf_onRecv, content']) after run
          refine ⟨last, ?_⟩
          rw [isReleased_onRecv, isReleased_takeFrame, app_takeFrame, verdict] at line
          convert line using 2
          rw [serve_cons, List.all_cons, id, Bool.not_or, Bool.not_not, Bool.and_assoc]

/-- A completion that goes on with bytes that make requests. -/
theorem completion_reads (answers : Answers recvProc spec Related) {s : Receiver σ} {t : τ}
    {kept bytes : List BYTE} (line : s.Line (some kept)) (nonempty : bytes ≠ [])
    (fits : kept.length + bytes.length < BUF_SIZE) {asks : List Ask} {left : Option (List BYTE)}
    (reads : Reads (kept ++ bytes) asks left) (related : Related s.app t) :
    Related (s.completion recvProc bytes).app (serve spec t asks).2 ∧
      (s.completion recvProc bytes).Line
        (if (serve spec t asks).1.all id then left else none) := by
  obtain ⟨-, live, size, content⟩ := line
  have room : bytes.length ≤ s.recvBuf.getFreeSize := by
    have split := s.recvBuf.getUseSize_add_getFreeSize
    rw [← CRingBuffer.length_content, content, size] at split
    omega
  have claimed : (s.claim bytes).recvBuf.content = kept ++ bytes := by
    rw [← content]
    exact CRingBuffer.content_fill_moveRear s.recvBuf room
  have run := @completion_of_claim _ recvProc s _ fun none =>
    nonempty (List.length_eq_zero_iff.mp none)
  have ended := recvLoop_reads answers reads (s := s.claim bytes) rfl size claimed related run
  rw [show (s.claim bytes).isReleased = false from live] at ended
  exact ended

end Receiver

/-! ## The exchange -/

/-- A room, and what is unread of each session: none where nothing is read. -/
structure Exchange where
  room : Room
  unread : UINT64 → Option (List BYTE)

/-- What happens to the server.  `arrive` is a completion on a session's
connection, with what its handlers find one after another; the ring of `connect`
is as its slot's last session left it. -/
inductive Happening where
  | connect (now session : UINT64) (rb : CRingBuffer)
  | leave (session : UINT64)
  | arrive (envs : Nat → Env) (fuel : Nat) (session : UINT64) (bytes : List BYTE)
  | store (env : LoginEnv) (fuel : Nat) (ok : Bool)

/-- A request, asked at the time that a clock shows next. -/
def Room.asked (clock : Nat → UINT64) (session : UINT64) (t : Room × Nat) (ask : Ask) :
    Bool × (Room × Nat) :=
  let (ok, room) := t.1.step (.ask (clock t.2) session ask)
  (ok, room, t.2 + 1)

namespace Exchange

def start : Exchange := ⟨Room.empty, fun _ => none⟩

/-- A session's requests are answered, all of them; nothing more is read once one
has been turned down. -/
def answered (x : Exchange) (clock : Nat → UINT64) (session : UINT64) (asks : List Ask)
    (left : Option (List BYTE)) : Exchange :=
  let answers := serve (Room.asked clock session) (x.room, 0) asks
  { room := answers.2.1
    unread := Function.update x.unread session (if answers.1.all id then left else none) }

/-- What an exchange makes of what happens. -/
inductive Step : Exchange → Happening → Exchange → Prop
  | connect {x : Exchange} {now session : UINT64} {rb : CRingBuffer}
      (size : rb.iBufSize = BUF_SIZE) :
      Step x (.connect now session rb)
        { room := (x.room.step (.join now session)).2
          unread := Function.update x.unread session (some []) }
  | leave {x : Exchange} {session : UINT64} :
      Step x (.leave session)
        { room := (x.room.step (.leave session)).2
          unread := Function.update x.unread session none }
  /-- Nothing completes where no receive is posted. -/
  | unposted {x : Exchange} {envs : Nat → Env} {fuel : Nat} {session : UINT64} {bytes : List BYTE}
      (none : x.unread session = none) : Step x (.arrive envs fuel session bytes) x
  /-- The client has closed its end. -/
  | closed {x : Exchange} {envs : Nat → Env} {fuel : Nat} {session : UINT64} {kept : List BYTE}
      (unread : x.unread session = some kept) :
      Step x (.arrive envs fuel session [])
        { x with unread := Function.update x.unread session none }
  | arrive {x : Exchange} {envs : Nat → Env} {fuel : Nat} {session : UINT64}
      {kept bytes : List BYTE} {asks : List Ask} {left : Option (List BYTE)}
      (unread : x.unread session = some kept) (nonempty : bytes ≠ [])
      (fits : kept.length + bytes.length < BUF_SIZE) (reads : Reads (kept ++ bytes) asks left) :
      Step x (.arrive envs fuel session bytes)
        (x.answered (fun i => (envs i).now) session asks left)
  | store {x : Exchange} {env : LoginEnv} {fuel : Nat} {ok : Bool} :
      Step x (.store env fuel ok) { x with room := (x.room.step (.verdict ok)).2 }

/-- What the exchange makes of a list of happenings, one after the other. -/
inductive Steps : Exchange → List Happening → Exchange → Prop
  | nil (x : Exchange) : Steps x [] x
  | cons {x y z : Exchange} {h : Happening} {hs : List Happening} (first : Step x h y)
      (later : Steps y hs z) : Steps x (h :: hs) z

end Exchange

/-! ## The server with its connections -/

structure Site where
  server : ChatServer
  line : UINT64 → Receiver Unit

namespace Site

/-- A connection that nothing is received on. -/
def idle : Receiver Unit := { Receiver.start CRingBuffer.new () with posted := false }

def start : Site := ⟨ChatServer.start, fun _ => idle⟩

/-- `RecvProc` as a completion calls it, with the number of its calls so far.
From a call on that does not return there is no server. -/
def recvProc (envs : Nat → Env) (fuel : Nat) (session : UINT64) (app : Option ChatServer × Nat)
    (packet : CPacket) : Bool × (Option ChatServer × Nat) :=
  match app.1.bind fun s => (Handler.recv (envs app.2) fuel session packet).exec s with
  | some (ok, s) => (ok, some s, app.2 + 1)
  | none => (false, none, app.2 + 1)

/-- A completion: none if one of its handlers does not return. -/
def arrive (site : Site) (envs : Nat → Env) (fuel : Nat) (session : UINT64) (bytes : List BYTE) :
    Option Site :=
  if (site.line session).posted then
    let line : Receiver (Option ChatServer × Nat) :=
      { site.line session with app := (some site.server, 0) }
    let done := line.completion (recvProc envs fuel session) bytes
    done.app.1.map fun server =>
      { server := server
        line := Function.update site.line session { done with app := () } }
  else
    some site

/-- What the server does: none if a handler does not return. -/
def exec (site : Site) : Happening → Option Site
  | .connect now session rb =>
      some { server := (site.server.joinProc now session).2
             line := Function.update site.line session (Receiver.start rb ()) }
  | .leave session =>
      some { server := (site.server.leaveProc session).2
             line := Function.update site.line session idle }
  | .arrive envs fuel session bytes => site.arrive envs fuel session bytes
  | .store env fuel ok => (site.server.redisThread env fuel ok).map fun done =>
      { site with server := done.2 }

/-- The server shows the exchange. -/
structure Shows (site : Site) (x : Exchange) : Prop where
  orderly : site.server.Orderly
  room : site.server.Shows x.room
  line : ∀ session, (site.line session).Line (x.unread session)

theorem shows_start : Shows start Exchange.start :=
  ⟨ChatServer.orderly_start, ChatServer.shows_empty, fun _ => rfl⟩

/-- What a completion's handlers have made of the server shows what they have
made of the room. -/
def Follows (app : Option ChatServer × Nat) (t : Room × Nat) : Prop :=
  ∃ s, app = (some s, t.2) ∧ s.Orderly ∧ s.Shows t.1

/-- The handlers of a completion return, and answer as the room does. -/
theorem recvProc_answers (envs : Nat → Env) (fuel : Nat) (session : UINT64) :
    Receiver.Answers (recvProc envs fuel session) (Room.asked (fun i => (envs i).now) session)
      Follows := by
  intro app t packet ask follows encodes
  obtain ⟨room, i⟩ := t
  obtain ⟨s, rfl, orderly, shown⟩ := follows
  obtain ⟨s', done, after⟩ := ChatServer.recvProc_shows orderly shown (envs i) fuel encodes
  have handled : (Handler.recv (envs i) fuel session packet).exec s =
      some ((room.step (.ask (envs i).now session ask)).1, s') := congrArg Except.toOption done
  unfold recvProc
  rw [Option.bind_some, handled]
  exact ⟨rfl, s', rfl, (ChatServer.orderly_exec orderly handled).1, after⟩

/-- The connections after one of them has changed. -/
theorem line_update {line : UINT64 → Receiver Unit} {unread : UINT64 → Option (List BYTE)}
    (lines : ∀ session, (line session).Line (unread session)) {session : UINT64}
    {line' : Receiver Unit} {left : Option (List BYTE)} (changed : line'.Line left)
    (other : UINT64) : (Function.update line session line' other).Line
      (Function.update unread session left other) := by
  rcases eq_or_ne other session with rfl | different
  · rw [Function.update_self, Function.update_self]
    exact changed
  · rw [Function.update_of_ne different, Function.update_of_ne different]
    exact lines other

variable {site : Site} {x y : Exchange}

theorem Shows.arrive (shown : site.Shows x) {envs : Nat → Env} {fuel : Nat} {session : UINT64}
    {bytes : List BYTE} (step : x.Step (.arrive envs fuel session bytes) y) :
    ∃ site', site.arrive envs fuel session bytes = some site' ∧ site'.Shows y := by
  have line := shown.line session
  unfold Site.arrive
  cases step with
  | unposted none =>
      rw [none] at line
      have idle : (site.line session).posted = false := line
      rw [if_neg (by rw [idle]; exact Bool.noConfusion)]
      exact ⟨site, rfl, shown⟩
  | closed unread =>
      rw [unread] at line
      rw [if_pos line.1]
      exact ⟨_, rfl, shown.orderly, shown.room, line_update shown.line rfl⟩
  | @arrive _ _ _ kept _ asks left unread nonempty fits reads =>
      rw [unread] at line
      rw [if_pos line.1]
      have carried : Receiver.Line { site.line session with app := (some site.server, 0) }
          (some kept) := line
      obtain ⟨⟨s, follows, orderly, room⟩, after⟩ := Receiver.completion_reads (t := (x.room, 0))
        (recvProc_answers envs fuel session) carried nonempty fits reads
        ⟨site.server, rfl, shown.orderly, shown.room⟩
      dsimp only
      rw [follows]
      refine ⟨_, rfl, orderly, room, line_update shown.line ?_⟩
      cases goes :
          (serve (Room.asked (fun i => (envs i).now) session) (x.room, 0) asks).1.all id with
      | false =>
          rw [goes] at after
          exact after
      | true =>
          rw [goes, if_pos rfl] at after
          rw [if_pos rfl]
          cases left with
          | none => exact after
          | some rest => exact after

/-- The server does what the exchange does. -/
theorem Shows.exec (shown : site.Shows x) {h : Happening} (step : x.Step h y) :
    ∃ site', site.exec h = some site' ∧ site'.Shows y := by
  cases step with
  | @connect now session rb size =>
      obtain ⟨-, room⟩ := ChatServer.joinProc_shows shown.orderly shown.room now session
      refine ⟨_, rfl, (ChatServer.orderly_joinProc shown.orderly now session).1, room,
        line_update shown.line ?_⟩
      exact ⟨rfl, rfl, size, CRingBuffer.content_clearBuffer rb⟩
  | @leave session =>
      obtain ⟨-, room⟩ := ChatServer.leaveProc_shows shown.orderly shown.room session
      exact ⟨_, rfl, (ChatServer.orderly_leaveProc shown.orderly session).1, room,
        line_update shown.line rfl⟩
  | unposted none => exact shown.arrive (.unposted none)
  | closed unread => exact shown.arrive (.closed unread)
  | arrive unread nonempty fits reads => exact shown.arrive (.arrive unread nonempty fits reads)
  | @store env fuel ok =>
      obtain ⟨s', done, room⟩ := ChatServer.redisThread_shows shown.orderly shown.room env fuel ok
      have handled : (Handler.redis env fuel ok).exec site.server =
          some ((x.room.step (.verdict ok)).1, s') := done
      refine ⟨{ site with server := s' }, ?_, (ChatServer.orderly_exec shown.orderly handled).1,
        room, shown.line⟩
      rw [exec, done]
      rfl

/-- **From the wire to the room.**  Whatever arrives, on whichever connections
and cut anyhow, the server handles all of it as the exchange does: every handler
returns, the players are the room's members, and every session has been sent the
letters in its mail. -/
theorem exchange_refinement {hs : List Happening} {x : Exchange}
    (steps : Exchange.start.Steps hs x) :
    ∃ site, hs.foldlM exec start = some site ∧ ∀ session,
      x.room.members session =
        (site.server.players session).map (fun player => (site.server.player player).member) ∧
      List.Forall₂ CPacket.Carries (site.server.sentTo session) (x.room.mail session) := by
  have follow : ∀ {x y : Exchange} {hs : List Happening} {site : Site}, x.Steps hs y →
      site.Shows x → ∃ site', hs.foldlM exec site = some site' ∧ site'.Shows y := by
    intro x y hs site steps
    induction steps generalizing site with
    | nil x => exact fun shown => ⟨site, rfl, shown⟩
    | cons first _ ih =>
        intro shown
        obtain ⟨site₁, done, shown₁⟩ := shown.exec first
        obtain ⟨site₂, rest, shown₂⟩ := ih shown₁
        refine ⟨site₂, ?_, shown₂⟩
        rw [List.foldlM_cons, done]
        exact rest
  obtain ⟨site, done, shown⟩ := follow steps shows_start
  exact ⟨site, done, fun session => ⟨shown.room.members session, shown.room.mail session⟩⟩

/-- A move to sector (3, 4), as a client sends it. -/
def moveRequest : ClientRequest where
  packet := CPacket.new.extend (bytesOf en_PACKET_CS_CHAT_REQ_SECTOR_MOVE ++
    (bytesOf (0 : INT64) ++ (bytesOf (3 : WORD) ++ bytesOf (4 : WORD)))) (by decide)
  randKey := 0x5A
  ask := .move 0 3 4
  sendable := ⟨rfl, rfl, by decide, by decide⟩
  encodes := ⟨_, CPacket.data_extend .., rfl⟩

/-- A session connects, and its request to move to sector (3, 4) arrives in two pieces. -/
def movesInPieces : List Happening :=
  let envs : Nat → Env := fun _ => ⟨0, 0, 0, 0, fun _ => 0⟩
  [.connect 0 7 CRingBuffer.new, .arrive envs 0 7 (moveRequest.wire.take 4),
    .arrive envs 0 7 (moveRequest.wire.drop 4)]

/-- A client whose request to move arrives in two pieces is told of the move, once. -/
theorem exchange_refinement_pieces : ∃ site, movesInPieces.foldlM exec start = some site ∧
    List.Forall₂ CPacket.Carries (site.server.sentTo 7) [.moved 0 3 4] := by
  have first : Reads ([] ++ moveRequest.wire.take 4) [] (some (moveRequest.wire.take 4)) :=
    reads_requests moveRequest ⟨List.take_prefix _ _, by decide +kernel⟩ []
  have second : Reads (moveRequest.wire.take 4 ++ moveRequest.wire.drop 4) [.move 0 3 4]
      (some []) := by
    have reads : Reads (([moveRequest].map ClientRequest.wire).flatten ++ []) [.move 0 3 4]
        (some []) :=
      reads_requests moveRequest ⟨List.nil_prefix, by decide +kernel⟩ [moveRequest]
    rw [List.map_singleton, List.flatten_singleton, List.append_nil] at reads
    rw [List.take_append_drop]
    exact reads
  have steps : ∃ x, Exchange.start.Steps movesInPieces x ∧ x.room.mail 7 = [.moved 0 3 4] := by
    refine ⟨_, .cons (.connect rfl) (.cons (.arrive ?_ ?_ ?_ first)
      (.cons (.arrive ?_ ?_ ?_ second) (.nil _))), rfl⟩
    · rfl
    · decide +kernel
    · decide +kernel
    · rfl
    · decide +kernel
    · decide +kernel
  obtain ⟨x, steps, mail⟩ := steps
  obtain ⟨site, done, shown⟩ := exchange_refinement steps
  exact ⟨site, done, mail ▸ (shown 7).2⟩

end Site

end ChattingServer
