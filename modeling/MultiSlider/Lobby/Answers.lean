import MultiSlider.Lobby.Admission
import MultiSlider.Lobby.Wire

/-! What `Lobby` makes of the answers that it waits for: the greeting in the constructor, the descriptions in
    `createRoom` and `joinRoom`, and the list in `getRooms`. And what it writes itself. -/

namespace MultiSlider

open JsonText Jsonxx

/-! The fields and the class of the greeting. -/

abbrev messageKeyServerName : Bytes := utf8 "serverName"
abbrev messageKeyVersionMajor : Bytes := utf8 "verMajor"
abbrev messageKeyVersionMinor : Bytes := utf8 "verMinor"
abbrev messageKeyVersionRevision : Bytes := utf8 "verRevision"

abbrev frontend.greeting : Bytes := utf8 "FrontendMessage$Greeting"

/-- `Lobby::Status`. -/
inductive LobbyStatus where
  | success
  | fail
  | roomIsFull
  | nameExists
  | roomExists
deriving DecidableEq, Repr

namespace WireLobby

variable (N : NumberFormat Int) (s : WireLobby)

/-- A `Lobby` that is connected. -/
def create : WireLobby := ⟨⟨[], [], [], 0, 0, 0, [], []⟩, [], false, false⟩

/-- The constructor, after the connection: what it makes of the first text, or what it throws. -/
def connect (response : Bytes) : Except LobbyFault WireLobby :=
  if response = [] then .error (.protocolError "Lobby[Lobby]: No responce from the server")
  else
    let messageJson := (parse N (IStream.ofText response)).2.1
    if isMessageClass ((getString messageKeyClass messageJson).getD []) frontend.greeting then
      match narrowCast 32 ((getNumber messageKeyVersionMajor messageJson).getD 0),
          narrowCast 32 ((getNumber messageKeyVersionMinor messageJson).getD 0) with
      | some verMajor, some verMinor =>
        if verMajor ≠ 0 ∨ verMinor ≠ 8 then .error (.protocolError "Lobby[Lobby]: Server version mismatch!")
        else .ok create
      | _, _ => .error .assertion
    else .error (.protocolError "Lobby[Lobby]: Unrecognized greeting")

/-- What `createRoom` and `joinRoom` make of the answer: they return the status, or fail an assertion. `refusals` are
    the plain answers that they tell apart. -/
def answered (refusals : List (Bytes × LobbyStatus)) (playerName : Bytes) (isHost : Bool) (response : Bytes) :
    WireLobbyTurn × Option LobbyStatus :=
  match WireRoomInfo.readInfo (parse N (IStream.ofText response)).2.1 with
  | .ok room => (WireLobby.returns ⟨room, playerName, true, isHost⟩ [.onJoined room], some .success)
  | .error .missing => (s.returns [], some ((refusals.lookup response).getD .fail))
  | .error .assertion => (s.throws .assertion, none)

/-- `createRoom` after its wait: one plain answer has a status of its own. -/
def createRoomAnswered (playerName response : Bytes) : WireLobbyTurn × Option LobbyStatus :=
  s.answered N [(utf8 responseRoomExists, .roomExists)] playerName true response

/-- `joinRoom` after its wait: two plain answers have statuses of their own. -/
def joinRoomAnswered (playerName response : Bytes) : WireLobbyTurn × Option LobbyStatus :=
  s.answered N [(utf8 responseRoomIsFull, .roomIsFull), (utf8 responseNameExists, .nameExists)] playerName false
    response

/-- One room of the list; what cannot be read stays as a new `RoomInfo`. -/
def readRoom : Value Int → Option WireRoomInfo
  | .object infoJson =>
    match WireRoomInfo.readInfo infoJson with
    | .ok room => some room
    | .error .missing => some create.myRoom
    | .error .assertion => none
  | _ => none

/-- `getRooms`, with the datagram that it waits for; none where an assertion fails. -/
def getRooms (message : Bytes) : Option (List WireRoomInfo) := (parseValues N (IStream.ofText message)).mapM readRoom

end WireLobby

/-! ### Answers -/

section
variable {N : NumberFormat Int} {room : RoomInfo} {t : Bytes}

/-- The answer of the server to `createRoom` or `joinRoom` that goes through. -/
theorem answered_room {s : Lobby} {waiting : Awaiting} (hwaiting : s.awaiting = some waiting)
    (h : CarriesRoom N room t) (readable : room.Readable) (refusals : List (Bytes × LobbyStatus)) :
    s.wire.answered N refusals (utf8 waiting.playerName) waiting.isHost t =
      ((s.answered (some room)).wire.returns [.onJoined room.toClient.wire], some .success) := by
  rw [WireLobby.answered, parse_room h, readInfo_room, RoomInfo.readInfo_toJson_iff.mpr ⟨readable, rfl⟩, Lobby.answered,
    hwaiting]
  rfl

/-- An answer that is no object leaves the `Lobby` as it is. -/
theorem answered_refusal {s : Lobby} (hplain : (parse N (IStream.ofText t)).2.1 = [])
    (refusals : List (Bytes × LobbyStatus)) (playerName : Bytes) (isHost : Bool) :
    s.wire.answered N refusals playerName isHost t =
      ((s.answered none).wire.returns [], some ((refusals.lookup t).getD .fail)) := by
  have hnone : (s.answered none).wire = s.wire := by
    unfold Lobby.answered
    split
    · rfl
    · rfl
  rw [WireLobby.answered, hplain, hnone]
  rfl

/-- The plain answers of the server are no objects. -/
theorem parse_plain : ∀ raw ∈ [responseSuck, responseRoomIsFull, responseNameExists, responseRoomExists,
    responseSuckIsFull], (parse N (IStream.ofText (utf8 raw))).2.1 = [] := by
  intro raw hraw
  simp only [List.mem_cons, List.not_mem_nil, or_false] at hraw
  rcases hraw with rfl | rfl | rfl | rfl | rfl
  · rfl
  · rfl
  · rfl
  · rfl
  · rfl

theorem utf8_beq (s t : String) : (utf8 s == utf8 t) = decide (s = t) := by
  rw [Bool.eq_iff_iff, beq_iff_eq, utf8_inj, decide_eq_true_iff]

/-- The status that `createRoom` and `joinRoom` return for what the server writes. -/
def TcpPayload.createStatus : TcpPayload → LobbyStatus
  | .room _ => .success
  | .text raw => if raw = responseRoomExists then .roomExists else .fail
  | .json _ => .fail

/-- The same for `joinRoom`, which tells other refusals apart. -/
def TcpPayload.joinStatus : TcpPayload → LobbyStatus
  | .room _ => .success
  | .text raw =>
    if raw = responseRoomIsFull then .roomIsFull else if raw = responseNameExists then .nameExists else .fail
  | .json _ => .fail

/-- What the server can write as the answer to a request that waits for one, as a text: a description that the client
    can read, or one of the plain answers. -/
inductive CarriesAnswer (N : NumberFormat Int) : TcpPayload → Bytes → Prop where
  | room {room : RoomInfo} {t : Bytes} (carries : CarriesRoom N room t) (readable : room.Readable) :
    CarriesAnswer N (.room room) t
  | text {raw : String} (plain : raw ∈ [responseSuck, responseRoomIsFull, responseNameExists, responseRoomExists]) :
    CarriesAnswer N (.text raw) (utf8 raw)

/-- What the program is told of an answer. -/
def TcpPayload.joined : TcpPayload → List WireLobbyCallback
  | .room room => [.onJoined room.toClient.wire]
  | _ => []

theorem plain_subset {raw : String}
    (h : raw ∈ [responseSuck, responseRoomIsFull, responseNameExists, responseRoomExists]) :
    raw ∈ [responseSuck, responseRoomIsFull, responseNameExists, responseRoomExists, responseSuckIsFull] :=
  List.mem_append_left [responseSuckIsFull] h

/-- `createRoom` and `joinRoom` make of the text of an answer what the answer says: the room is entered and told of
    exactly where the answer describes one, and else the status says what the plain answer means. -/
theorem answered_payload {s : Lobby} {waiting : Awaiting} (hwaiting : s.awaiting = some waiting) {payload : TcpPayload}
    (h : CarriesAnswer N payload t) : (if waiting.isHost then s.wire.createRoomAnswered N (utf8 waiting.playerName) t
      else s.wire.joinRoomAnswered N (utf8 waiting.playerName) t) =
        ((s.answered payload.asRoom).wire.returns payload.joined,
          some (if waiting.isHost then payload.createStatus else payload.joinStatus)) := by
  unfold WireLobby.createRoomAnswered WireLobby.joinRoomAnswered
  cases h with
  | room carries readable =>
    split
    · rename_i hhost
      have hanswered := answered_room hwaiting carries readable [(utf8 responseRoomExists, .roomExists)]
      rw [hhost] at hanswered
      exact hanswered
    · rename_i hguest
      have hanswered := answered_room hwaiting carries readable
        [(utf8 responseRoomIsFull, .roomIsFull), (utf8 responseNameExists, .nameExists)]
      rw [Bool.eq_false_iff.mpr hguest] at hanswered
      exact hanswered
  | @text raw plain =>
    have hplain := parse_plain (N := N) raw (plain_subset plain)
    rw [answered_refusal hplain, answered_refusal hplain]
    split
    · have hstatus : ([(utf8 responseRoomExists, LobbyStatus.roomExists)].lookup (utf8 raw)).getD .fail =
          (TcpPayload.text raw).createStatus := by
        simp only [List.lookup_cons, List.lookup_nil, utf8_beq, TcpPayload.createStatus]
        by_cases hraw : raw = responseRoomExists
        · simp [hraw]
        · simp [hraw]
      rw [hstatus]
      rfl
    · have hstatus : ([(utf8 responseRoomIsFull, LobbyStatus.roomIsFull), (utf8 responseNameExists, .nameExists)].lookup
          (utf8 raw)).getD .fail = (TcpPayload.text raw).joinStatus := by
        simp only [List.lookup_cons, List.lookup_nil, utf8_beq, TcpPayload.joinStatus]
        by_cases hfull : raw = responseRoomIsFull
        · simp [hfull]
        · rw [if_neg hfull, decide_eq_false hfull]
          by_cases hname : raw = responseNameExists
          · simp [hname]
          · simp [hname]
      rw [hstatus]
      rfl

/-- A room of two players, as its actor describes it to the second of them. -/
def den : RoomInfo := ⟨"den", "Ann", "", 4, 1, 2, some ["Ann", "Bob"], "x"⟩

theorem den_readable : den.Readable where
  playersLimit := by decide
  playersReserved := by decide
  playersNumber := by decide
  players := by decide

theorem den_writable : Writable integers (.object den.fields) := by
  simp [den, Writable, AllWritable, FieldsWritable, RoomInfo.fields, integers]

theorem answered_payload_joined : WireLobby.joinRoomAnswered integers
    (Lobby.wire { Lobby.create with awaiting := some ⟨"Bob", false⟩ }) (utf8 "Bob")
    ([0x20] ++ body integers 0 (.object den.fields) ++ []) =
      ((Lobby.wire ⟨den, "Bob", true, false, none⟩).returns [.onJoined den.toClient.wire],
        some .success) := by
  have answered {t : Bytes} (h : CarriesRoom integers den t) : WireLobby.joinRoomAnswered integers
      (Lobby.wire { Lobby.create with awaiting := some ⟨"Bob", false⟩ }) (utf8 "Bob") t =
        ((Lobby.wire ⟨den, "Bob", true, false, none⟩).returns [.onJoined den.toClient.wire], some .success) :=
    answered_payload (s := { Lobby.create with awaiting := some ⟨"Bob", false⟩ }) rfl (.room h den_readable)
  exact answered (.json (.refl _) (by decide) (body_spells 0 den_writable))

/-! ### The list of rooms -/

/-- The rooms of the list are read one by one as what they are. -/
theorem readRooms {entries : List (Value Int)} {rooms : List RoomInfo}
    (h : List.Forall₂ (fun entry room => ∃ fields, entry = Value.object fields ∧ fields.Perm (RoomInfo.fields room))
      entries rooms) (readable : ∀ room ∈ rooms, room.Readable) :
    (normalAll entries).mapM WireLobby.readRoom = some (rooms.map fun room => room.toClient.wire) := by
  induction h with
  | nil => rfl
  | @cons entry room entries rooms hentry _ ih =>
    obtain ⟨fields, rfl, order⟩ := hentry
    obtain ⟨hroom, hrooms⟩ := List.forall_mem_cons.mp readable
    have hflat : Flat fields := fun e he => roomFields_flat room e (order.mem_iff.mp he)
    have hnodup : (fields.map (·.1)).Nodup := (order.map _).nodup_iff.mpr (roomFields_nodup room)
    have hread : WireLobby.readRoom (Value.object fields).normal = some room.toClient.wire := by
      rw [Value.normal, normalFields_flat hflat, SortedMap.storeAll_perm hnodup order, WireLobby.readRoom,
        readInfo_room, RoomInfo.readInfo_toJson_iff.mpr ⟨hroom, rfl⟩]
      rfl
    rw [normalAll, List.mapM_cons, hread, ih hrooms]
    rfl

/-- `getRooms` reads a list of rooms as it is, however its text is written. -/
theorem getRooms_list {rooms : List RoomInfo} {entries : List (Value Int)} {w t rest : Bytes}
    (h : List.Forall₂ (fun entry room => ∃ fields, entry = Value.object fields ∧ fields.Perm (RoomInfo.fields room))
      entries rooms) (readable : ∀ room ∈ rooms, room.Readable) (blank : Blank w)
    (spells : Spells asciiUnit N.Spelled (.value (.array entries)) t) :
    WireLobby.getRooms N (w ++ t ++ rest) = some (rooms.map fun room => room.toClient.wire) := by
  rw [WireLobby.getRooms, parseValues_array N (spells.mono fun _ _ => byteUnit_of_asciiUnit) blank]
  exact readRooms h readable

theorem getRooms_list_two : WireLobby.getRooms integers ([0x20] ++
    body integers 0 (.array [.object den.noPlayers.fields, .object den.fields]) ++ []) =
      some [den.noPlayers.toClient.wire, den.toClient.wire] := by
  have hentries : List.Forall₂ (fun entry room => ∃ fields, entry = Value.object fields ∧
      fields.Perm (RoomInfo.fields room)) [.object den.noPlayers.fields, .object den.fields] [den.noPlayers, den] :=
    .cons ⟨_, rfl, .refl _⟩ (.cons ⟨_, rfl, .refl _⟩ .nil)
  have hnone : den.noPlayers.Readable :=
    { den_readable with players := by decide }
  refine getRooms_list hentries ?_ (by decide) (body_spells 0 ?_)
  · exact List.forall_mem_cons.mpr ⟨hnone, List.forall_mem_singleton.mpr den_readable⟩
  · simp [den, RoomInfo.noPlayers, Writable, AllWritable, FieldsWritable, RoomInfo.fields, integers]

/-! ### The greeting -/

/-- The members of a greeting. -/
def greetingFields (serverName : String) (verMajor verMinor verRevision : Int) : Fields Int :=
  classFields frontend.greeting [(messageKeyServerName, .string (utf8 serverName)),
    (messageKeyVersionMajor, .number verMajor), (messageKeyVersionMinor, .number verMinor),
    (messageKeyVersionRevision, .number verRevision)]

section
variable (serverName : String) (verMajor verMinor verRevision : Int)

theorem greeting_nodup : ((greetingFields serverName verMajor verMinor verRevision).map (·.1)).Nodup := by
  simp [greetingFields, classFields]

theorem greeting_flat : Flat (greetingFields serverName verMajor verMinor verRevision) := by
  simp [Flat, greetingFields, classFields, Value.normal]

theorem get_greeting (key : Bytes) :
    SortedMap.get key (SortedMap.storeAll [] (greetingFields serverName verMajor verMinor verRevision)) =
      SortedMap.get key (greetingFields serverName verMajor verMinor verRevision) := by
  rw [SortedMap.get_storeAll (greeting_nodup ..), SortedMap.get_nil, Option.or_none]

theorem getString_greeting : getString messageKeyClass
    (SortedMap.storeAll [] (greetingFields serverName verMajor verMinor verRevision)) = some frontend.greeting := by
  rw [getString, get_greeting]
  simp [SortedMap.get, greetingFields, classFields]

theorem getNumber_greeting : getNumber messageKeyVersionMajor
      (SortedMap.storeAll [] (greetingFields serverName verMajor verMinor verRevision)) = some verMajor ∧
    getNumber messageKeyVersionMinor
      (SortedMap.storeAll [] (greetingFields serverName verMajor verMinor verRevision)) = some verMinor := by
  rw [getNumber, getNumber, get_greeting, get_greeting]
  simp [SortedMap.get, greetingFields, classFields]

end

theorem isGreeting : isMessageClass frontend.greeting frontend.greeting = true := by
  rw [isMessageClass_utf8 (by decide +kernel)]
  exact decide_eq_true rfl

/-- A greeting of the client's own version connects it, and one of another version does not. -/
theorem connect_greeting (verMajor verMinor : Nat) {serverName : String} {verRevision : Int} {w t rest : Bytes}
    {fields : Fields Int} (order : fields.Perm (greetingFields serverName verMajor verMinor verRevision))
    (blank : Blank w) (spells : Spells asciiUnit N.Spelled (.value (.object fields)) t)
    (hmajor : verMajor < 2 ^ 32) (hminor : verMinor < 2 ^ 32) : WireLobby.connect N (w ++ t ++ rest) =
      if verMajor = 0 ∧ verMinor = 8 then .ok Lobby.create.wire
      else .error (.protocolError "Lobby[Lobby]: Server version mismatch!") := by
  have hnodup : (fields.map (·.1)).Nodup := (order.map _).nodup_iff.mpr (greeting_nodup ..)
  have hflat : Flat fields := fun e he => greeting_flat _ _ _ _ e (order.mem_iff.mp he)
  have hparse : (parse N (IStream.ofText (w ++ t ++ rest))).2.1 =
      SortedMap.storeAll [] (greetingFields serverName verMajor verMinor verRevision) := by
    rw [parse_object N (spells.mono fun _ _ => byteUnit_of_asciiUnit) blank, normalFields_flat hflat,
      SortedMap.storeAll_perm hnodup order]
  have hne : w ++ t ++ rest ≠ [] := by
    cases spells with
    | emptyObject => simp
    | object => simp
  obtain ⟨hgetMajor, hgetMinor⟩ := getNumber_greeting serverName verMajor verMinor verRevision
  rw [WireLobby.connect, if_neg hne, hparse]
  dsimp only
  rw [getString_greeting, hgetMajor, hgetMinor, Option.getD_some, isGreeting, if_pos rfl, Option.getD_some,
    Option.getD_some, narrowCast_natCast hmajor, narrowCast_natCast hminor]
  dsimp only
  by_cases hversion : verMajor = 0 ∧ verMinor = 8
  · rw [if_pos hversion, if_neg fun hother => not_and_or.mpr hother hversion]
    rfl
  · rw [if_neg hversion, if_pos (not_and_or.mp hversion)]

/-- One that is turned away is told so by an exception. -/
theorem connect_full : WireLobby.connect N (utf8 responseSuckIsFull) =
    .error (.protocolError "Lobby[Lobby]: Unrecognized greeting") := by
  have hparse : (parse N (IStream.ofText (utf8 responseSuckIsFull))).2.1 = [] :=
    parse_plain responseSuckIsFull (by simp)
  have hne : utf8 responseSuckIsFull ≠ [] := utf8_eq_nil_iff.not.mpr (by decide)
  have hclass : isMessageClass [] frontend.greeting = false := by decide +kernel
  rw [WireLobby.connect, if_neg hne, hparse]
  dsimp only
  rw [getString, SortedMap.get_nil, Option.getD_none, hclass, if_neg Bool.false_ne_true]

/-- The texts of what the frontend actor sends on a connection. -/
inductive CarriesReply (N : NumberFormat Int) : FrontendReply → Bytes → Prop where
  | greeting {c : Connection} {serverName : String} {verMajor verMinor verRevision : Int} {w t rest : Bytes}
    {fields : Fields Int} (order : fields.Perm (greetingFields serverName verMajor verMinor verRevision))
    (blank : Blank w) (spells : Spells asciiUnit N.Spelled (.value (.object fields)) t) :
    CarriesReply N (.greeting c serverName verMajor verMinor verRevision) (w ++ t ++ rest)
  | text {c : Connection} {raw : String} : CarriesReply N (.text c raw) (utf8 raw)

/-- In every run of the server with its frontend, the constructor of `Lobby` makes of the first text on a connection
    what the frontend actor has decided: it connects where there is a client actor, and throws where there is none. -/
theorem connect_admitted (ipBackend : String) (portBackend : Int) (actions : List EntranceAction) (c : Connection)
    {reply : FrontendReply} (carries : CarriesReply N reply t) :
    let σ := Machine.run Entrance.step (Entrance.start ipBackend portBackend) actions
    (σ.repliesTo c).head? = some reply → WireLobby.connect N t =
      if c ∈ σ.handlers then .ok Lobby.create.wire
      else .error (.protocolError "Lobby[Lobby]: Unrecognized greeting") := by
  intro σ hfirst
  obtain ⟨-, hreceived⟩ := Entrance.books_run ipBackend portBackend actions
  by_cases hc : c ∈ σ.handlers
  · rw [hreceived.greeted c hc] at hfirst
    obtain rfl := Option.some.inj hfirst
    cases carries with
    | greeting order blank spells =>
      rw [if_pos hc]
      exact (connect_greeting 0 8 order blank spells (by decide) (by decide)).trans
        (if_pos ⟨rfl, rfl⟩)
  · rw [if_neg hc]
    rcases hreceived.turned hc with hrefused | ⟨-, hnothing⟩
    · rw [hrefused] at hfirst
      obtain rfl := Option.some.inj hfirst
      cases carries with
      | text => exact connect_full
    · rw [hnothing] at hfirst
      cases hfirst

theorem connect_admitted_first : WireLobby.connect integers
    ([] ++ body integers 0 (.object (greetingFields defaultName versionMajor versionMinor versionRevision)) ++ []) =
      if 3 ∈ (Machine.run Entrance.step (Entrance.start "localhost" 8700) [.connect 3, .turn]).handlers
      then .ok Lobby.create.wire else .error (.protocolError "Lobby[Lobby]: Unrecognized greeting") := by
  have hwritable :
      Writable integers (.object (greetingFields defaultName versionMajor versionMinor versionRevision)) := by
    simp [Writable, FieldsWritable, greetingFields, classFields, integers, versionMajor, versionMinor, versionRevision]
  have hcarries : CarriesReply integers (.greeting 3 defaultName versionMajor versionMinor versionRevision)
      ([] ++ body integers 0 (.object (greetingFields defaultName versionMajor versionMinor versionRevision)) ++ []) :=
    .greeting (.refl _) (List.forall_mem_nil _) (body_spells 0 hwritable)
  exact connect_admitted "localhost" 8700 [.connect 3, .turn] 3 hcarries rfl

end

/-! ### Requests -/

/-- The fields of a message to the server; the data of an `Envelop` is the text `packed`. -/
def FrontendMessage.fields (packed : Bytes) : FrontendMessage → Fields Int
  | .createRoom playerName roomName description playersLimit playersReserved userParam =>
    classFields frontend.createRoom [(messageKeyPlayerName, .string (utf8 playerName)),
      (messageKeyRoomName, .string (utf8 roomName)), (messageKeyRoomDesc, .string (utf8 description)),
      (messageKeyPlayersLimit, .number playersLimit), (messageKeyPlayersReserved, .number playersReserved),
      (messageKeyUserParam, .string (utf8 userParam))]
  | .closeRoom => classFields frontend.closeRoom []
  | .joinRoom playerName roomName =>
    classFields frontend.joinRoom [(messageKeyPlayerName, .string (utf8 playerName)),
      (messageKeyRoomName, .string (utf8 roomName))]
  | .envelop roomName _ =>
    classFields frontend.envelop [(messageKeyRoomName, .string (utf8 roomName)), (messageKeyData, .string packed)]

/-- The object that a method of `Lobby` builds, with `<<` for each field. -/
def requestText (N : NumberFormat Int) (packed : Bytes) (message : FrontendMessage) : Bytes :=
  json N (SortedMap.storeAll [] (message.fields packed))

/-- The text that is sent on the connection for a message. -/
def FrontendMessage.text (N : NumberFormat Int) : FrontendMessage → Bytes
  | .envelop roomName (some m) => requestText N (packedText N m) (.envelop roomName (some m))
  | message => requestText N [] message

section
variable {N : NumberFormat Int} {message : FrontendMessage}

theorem frontend_fields_nodup (message : FrontendMessage) (packed : Bytes) :
    ((message.fields packed).map (·.1)).Nodup := by
  cases message <;> simp [FrontendMessage.fields, classFields]

/-- The numbers of a message, those of a message packed into it included. -/
def FrontendMessage.numbers : FrontendMessage → List Int
  | .createRoom _ _ _ playersLimit playersReserved _ => [playersLimit, playersReserved]
  | .envelop _ (some m) => m.numbers
  | _ => []

/-- The text of a request spells an object with exactly its fields. -/
theorem requestText_spells (packed : Bytes) (hexact : ∀ x ∈ message.numbers, N.Exact x) :
    ∃ t w fields, requestText N packed message = t ++ w ∧ Blank w ∧ fields.Perm (message.fields packed) ∧
      Spells asciiUnit N.Spelled (.value (.object fields)) t := by
  have hwritable : Writable N (.object (SortedMap.storeAll [] (message.fields packed))) := by
    refine writable_storeAll (frontend_fields_nodup message packed) ?_
    cases message <;>
      simp_all [FieldsWritable, FrontendMessage.fields, classFields, Writable, FrontendMessage.numbers]
  obtain ⟨t, w, htext, hblank, hspells⟩ := json_spells hwritable
  exact ⟨t, w, _, htext, hblank, SortedMap.storeAll_perm_append (frontend_fields_nodup message packed), hspells⟩

/-- The messages that a call sends: their numbers are those of a `uint32_t`, and there is no room in them. -/
theorem Lobby.Called.sent {s next : Lobby} {k : LobbyCall} (h : s.Called k next message) :
    (∀ x ∈ message.numbers, ∃ n : UInt32, x = n.toNat) ∧
      ∀ roomName data, message = .envelop roomName data → ∃ m, data = some m ∧ m.room = none := by
  cases h with
  | creates =>
    refine ⟨List.forall_mem_cons.mpr ⟨⟨_, rfl⟩, List.forall_mem_singleton.mpr ⟨_, rfl⟩⟩, ?_⟩
    intro roomName data heq
    cases heq
  | reconfigures host =>
    refine ⟨List.forall_mem_cons.mpr ⟨⟨_, rfl⟩, List.forall_mem_singleton.mpr ⟨_, rfl⟩⟩, ?_⟩
    intro roomName data heq
    cases heq
    exact ⟨_, rfl, rfl⟩
  | joins | closes =>
    refine ⟨List.forall_mem_nil _, ?_⟩
    intro roomName data heq
    cases heq
  | leaves | ejects | starts | speaks =>
    refine ⟨List.forall_mem_nil _, ?_⟩
    intro roomName data heq
    cases heq
    exact ⟨_, rfl, rfl⟩

/-- Whatever a call of `Lobby` sends is JSON with exactly the fields of the message, whatever the strings are, and what
    it packs into an `Envelop` carries the message for the room. -/
theorem call_text (N : NumberFormat Int) (hexact : ∀ n : UInt32, N.Exact n.toNat) {s next : Lobby} {k : LobbyCall}
    (h : s.call k = some (next, message)) : ∃ packed t w fields, message.text N = t ++ w ∧ Blank w ∧
      fields.Perm (message.fields packed) ∧ Spells asciiUnit N.Spelled (.value (.object fields)) t ∧
        ∀ roomName data, message = .envelop roomName data → ∃ m, data = some m ∧ CarriesMessage N m packed := by
  obtain ⟨hnumbers, hdata⟩ := (Lobby.call_called h).2.sent
  have hwhole : ∀ x ∈ message.numbers, N.Exact x := by
    intro x hx
    obtain ⟨n, rfl⟩ := hnumbers x hx
    exact hexact n
  have hplain : ∀ packed, message.text N = requestText N packed message →
      (∀ roomName data, message = .envelop roomName data → ∃ m, data = some m ∧ CarriesMessage N m packed) →
      ∃ packed t w fields, message.text N = t ++ w ∧ Blank w ∧ fields.Perm (message.fields packed) ∧
        Spells asciiUnit N.Spelled (.value (.object fields)) t ∧
          ∀ roomName data, message = .envelop roomName data → ∃ m, data = some m ∧ CarriesMessage N m packed := by
    intro packed htext hpacked
    obtain ⟨t, w, fields, hrequest, hblank, order, hspells⟩ := requestText_spells packed hwhole
    exact ⟨packed, t, w, fields, htext.trans hrequest, hblank, order, hspells, hpacked⟩
  cases message with
  | envelop roomName data =>
    obtain ⟨m, rfl, hroom⟩ := hdata roomName data rfl
    refine hplain (packedText N m) rfl ?_
    intro roomName' data' heq
    cases heq
    exact ⟨m, rfl, packedText_carries hroom hwhole⟩
  | _ => exact hplain [] rfl fun _ _ heq => nomatch heq

theorem call_text_reconfigure : ∃ packed t w fields,
    (FrontendMessage.envelop "den" (some (.reconfigure 4 1))).text integers = t ++ w ∧ Blank w ∧
      fields.Perm ((FrontendMessage.envelop "den" (some (.reconfigure 4 1))).fields packed) ∧
        Spells asciiUnit integers.Spelled (.value (.object fields)) t ∧ ∀ roomName data,
          FrontendMessage.envelop "den" (some (.reconfigure 4 1)) = .envelop roomName data →
            ∃ m, data = some m ∧ CarriesMessage integers m packed := by
  refine call_text (k := .reconfigure 4 1) (s := ⟨⟨"den", "Ann", "", 4, 0, 1, none, ""⟩, "Ann", true, true, none⟩)
    integers ?_ rfl
  intro n
  change (n.toNat : Int).natAbs < 10 ^ 19
  have hn := n.toNat_lt
  omega

end

end MultiSlider
