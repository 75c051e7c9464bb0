import MultiSlider.Lobby.Framing
import MultiSlider.Lobby.Frontend
import MultiSlider.Lobby.Parameters
import MultiSlider.Session.Wire

/-! The texts of a lobby connection as bytes: what the server and `Lobby.cpp` write, and what `Lobby` makes of the
    texts that come in. -/

namespace MultiSlider

open JsonText Jsonxx

/-! The fields of the messages of the lobby. -/

abbrev messageKeyRoom : Bytes := utf8 "room"
abbrev messageKeyRoomName : Bytes := utf8 "roomName"
abbrev messageKeyRoomDesc : Bytes := utf8 "description"
abbrev messageKeyToSelf : Bytes := utf8 "toSelf"
abbrev messageKeyIp : Bytes := utf8 "ip"
abbrev messageKeyPort : Bytes := utf8 "port"
abbrev messageKeyHost : Bytes := utf8 "host"
abbrev messageKeyFlags : Bytes := utf8 "flags"
abbrev messageKeyPlayers : Bytes := utf8 "players"
abbrev messageKeyPlayersLimit : Bytes := utf8 "playersLimit"
abbrev messageKeyPlayersNumber : Bytes := utf8 "playersNumber"
abbrev messageKeyPlayersReserved : Bytes := utf8 "playersReserved"
abbrev messageKeyUserParam : Bytes := utf8 "userParam"

namespace frontend

/-! The classes of the messages. -/

abbrev envelop : Bytes := utf8 "FrontendMessage$Envelop"
abbrev createRoom : Bytes := utf8 "FrontendMessage$CreateRoom"
abbrev reconfigure : Bytes := utf8 "FrontendMessage$Reconfigure"
abbrev getRooms : Bytes := utf8 "FrontendMessage$GetRooms"
abbrev closeRoom : Bytes := utf8 "FrontendMessage$CloseRoom"
abbrev ejectPlayer : Bytes := utf8 "FrontendMessage$EjectPlayer"
abbrev joinRoom : Bytes := utf8 "FrontendMessage$JoinRoom"
abbrev leaveRoom : Bytes := utf8 "FrontendMessage$LeaveRoom"
abbrev ejected : Bytes := utf8 "FrontendMessage$Ejected"
abbrev startSession : Bytes := utf8 "FrontendMessage$StartSession"
abbrev sessionStarted : Bytes := utf8 "FrontendMessage$SessionStarted"
abbrev reconfigureSuck : Bytes := utf8 "FrontendMessage$ReconfigureSuck"
abbrev reconfigureSucc : Bytes := utf8 "FrontendMessage$ReconfigureSucc"
abbrev broadcast : Bytes := utf8 "FrontendMessage$Update"
abbrev message : Bytes := utf8 "FrontendMessage$Message"

end frontend

/-! ### Objects -/

/-- The fields of a room description; `players` may be `null`. -/
def RoomInfo.fields (room : RoomInfo) : Fields Int :=
  [(messageKeyName, .string (utf8 room.name)), (messageKeyHost, .string (utf8 room.host)),
    (messageKeyRoomDesc, .string (utf8 room.description)), (messageKeyPlayersLimit, .number room.playersLimit),
    (messageKeyPlayersReserved, .number room.playersReserved), (messageKeyPlayersNumber, .number room.playersNumber),
    (messageKeyPlayers, match room.players with
      | some names => .array (names.map fun name => .string (utf8 name))
      | none => .null),
    (messageKeyUserParam, .string (utf8 room.userParam))]

/-- The fields of a message. Those of the room in an `Update` and a `ReconfigureSucc` are `roomFields`. -/
def RoomMessage.fields (roomFields : Fields Int) : RoomMessage → Fields Int
  | .closeRoom => classFields frontend.closeRoom []
  | .joinRoom playerName roomName =>
    classFields frontend.joinRoom [(messageKeyPlayerName, .string (utf8 playerName)),
      (messageKeyRoomName, .string (utf8 roomName))]
  | .leaveRoom => classFields frontend.leaveRoom []
  | .ejectPlayer playerName => classFields frontend.ejectPlayer [(messageKeyPlayerName, .string (utf8 playerName))]
  | .startSession data => classFields frontend.startSession [(messageKeyData, .string (utf8 data))]
  | .sessionStarted ip port name id data =>
    classFields frontend.sessionStarted [(messageKeyIp, .string (utf8 ip)), (messageKeyPort, .number port),
      (messageKeyName, .string (utf8 name)), (messageKeyId, .number id), (messageKeyData, .string (utf8 data))]
  | .update _ data sender toSelf flags =>
    classFields frontend.broadcast [(messageKeyRoom, .object roomFields), (messageKeyData, .string (utf8 data)),
      (messageKeySender, .string (utf8 sender)), (messageKeyToSelf, .bool toSelf), (messageKeyFlags, .number flags)]
  | .ejected flags => classFields frontend.ejected [(messageKeyFlags, .number flags)]
  | .message sender data toSelf =>
    classFields frontend.message [(messageKeySender, .string (utf8 sender)), (messageKeyData, .string (utf8 data)),
      (messageKeyToSelf, .bool toSelf)]
  | .reconfigure playersLimit playersReserved =>
    classFields frontend.reconfigure [(messageKeyPlayersLimit, .number playersLimit),
      (messageKeyPlayersReserved, .number playersReserved)]
  | .reconfigureSuck => classFields frontend.reconfigureSuck []
  | .reconfigureSucc _ => classFields frontend.reconfigureSucc [(messageKeyRoom, .object roomFields)]

/-- The room that a message describes. -/
def RoomMessage.room : RoomMessage → Option RoomInfo
  | .update room _ _ _ _ => some room
  | .reconfigureSucc room => some room
  | _ => none

/-! ### Reading a description -/

/-- The client's `RoomInfo` with the strings that the program has: bytes. -/
structure WireRoomInfo where
  roomName : Bytes
  hostName : Bytes
  description : Bytes
  playersLimit : Nat
  playersNumber : Nat
  playersReserved : Nat
  players : List Bytes
  userParameter : Bytes
deriving DecidableEq, Repr

/-- The descriptor with its strings as bytes. -/
def ClientRoomInfo.wire (info : ClientRoomInfo) : WireRoomInfo where
  roomName := utf8 info.roomName
  hostName := utf8 info.hostName
  description := utf8 info.description
  playersLimit := info.playersLimit
  playersNumber := info.playersNumber
  playersReserved := info.playersReserved
  players := info.players.map utf8
  userParameter := utf8 info.userParameter

namespace WireRoomInfo

/-- The strings of an array, if it holds nothing else. -/
def strings : List (Value Int) → Option (List Bytes)
  | [] => some []
  | .string s :: xs => (strings xs).map (s :: ·)
  | _ :: _ => none

variable (infoJson : Fields Int)

/-- A field that has to be a string. -/
def readString (key : Bytes) : Except Refusal Bytes :=
  match getString key infoJson with
  | some s => .ok s
  | none => .error .missing

/-- A field that has to be a number, cast to 32 bits. -/
def readNumber (key : Bytes) : Except Refusal Nat :=
  match getNumber key infoJson with
  | some x =>
    match narrowCast 32 x with
    | some n => .ok n
    | none => .error .assertion
  | none => .error .missing

/-- The list of players; where there is none, or the field is no array, the room gets an empty one. -/
def readPlayers (playersNumber : Nat) : Except Refusal (List Bytes) :=
  match SortedMap.get messageKeyPlayers infoJson with
  | some (.array xs) =>
    match strings xs with
    | some players => do
      Json.checkSize playersNumber players.length
      return players
    | none => .error .assertion
  | _ => .ok []

/-- The body of `deserialize`: the fields in the order in which they are read. -/
def readInfo : Except Refusal WireRoomInfo := do
  let roomName ← readString infoJson messageKeyName
  let hostName ← readString infoJson messageKeyHost
  let description ← readString infoJson messageKeyRoomDesc
  let playersLimit ← readNumber infoJson messageKeyPlayersLimit
  let playersNumber ← readNumber infoJson messageKeyPlayersNumber
  let playersReserved ← readNumber infoJson messageKeyPlayersReserved
  let players ← readPlayers infoJson playersNumber
  let userParameter ← readString infoJson messageKeyUserParam
  return { roomName, hostName, description, playersLimit, playersNumber, playersReserved, players, userParameter }

end WireRoomInfo

section

theorem roomFields_nodup (room : RoomInfo) : (room.fields.map (·.1)).Nodup := by simp [RoomInfo.fields]

theorem get_room (room : RoomInfo) (key : Bytes) :
    SortedMap.get key (SortedMap.storeAll [] room.fields) = SortedMap.get key room.fields := by
  rw [SortedMap.get_storeAll (roomFields_nodup room), SortedMap.get_nil, Option.or_none]

theorem getString_room (room : RoomInfo) (key : Bytes) :
    getString key (SortedMap.storeAll [] room.fields) = getString key room.fields := by
  rw [getString, get_room, getString]

theorem getNumber_room (room : RoomInfo) (key : Bytes) :
    getNumber key (SortedMap.storeAll [] room.fields) = getNumber key room.fields := by
  rw [getNumber, get_room, getNumber]

theorem castNumber_intCast (x : Int) : castNumber x = narrowCast 32 x := by simp [castNumber]

theorem strings_utf8 (names : List String) :
    WireRoomInfo.strings (names.map fun name => .string (utf8 name)) = some (names.map utf8) := by
  induction names with
  | nil => rfl
  | cons name names ih =>
    rw [List.map_cons, WireRoomInfo.strings, ih]
    rfl

variable (room : RoomInfo)

theorem readString_room : WireRoomInfo.readString (SortedMap.storeAll [] room.fields) messageKeyName =
      .ok (utf8 room.name) ∧
    WireRoomInfo.readString (SortedMap.storeAll [] room.fields) messageKeyHost = .ok (utf8 room.host) ∧
    WireRoomInfo.readString (SortedMap.storeAll [] room.fields) messageKeyRoomDesc = .ok (utf8 room.description) ∧
    WireRoomInfo.readString (SortedMap.storeAll [] room.fields) messageKeyUserParam = .ok (utf8 room.userParam) := by
  simp only [WireRoomInfo.readString, getString_room]
  simp [getString, SortedMap.get, RoomInfo.fields]

/-- A number of a description is cast as that of an object without a text. -/
theorem readNumber_eq {key : Bytes} {key' : String} {x : Int} (hget : getNumber key room.fields = some x)
    (hlookup : room.toJson.lookup key' = some (.number x)) :
    WireRoomInfo.readNumber (SortedMap.storeAll [] room.fields) key = Json.readNumber room.toJson key' := by
  rw [WireRoomInfo.readNumber, getNumber_room, hget, Json.readNumber, hlookup]
  dsimp only
  cases hcast : narrowCast 32 x with
  | none => simp only [castNumber_intCast, hcast]
  | some n => simp only [castNumber_intCast, hcast]

theorem readNumber_room :
    WireRoomInfo.readNumber (SortedMap.storeAll [] room.fields) messageKeyPlayersLimit =
      Json.readNumber room.toJson "playersLimit" ∧
    WireRoomInfo.readNumber (SortedMap.storeAll [] room.fields) messageKeyPlayersNumber =
      Json.readNumber room.toJson "playersNumber" ∧
    WireRoomInfo.readNumber (SortedMap.storeAll [] room.fields) messageKeyPlayersReserved =
      Json.readNumber room.toJson "playersReserved" := by
  refine ⟨readNumber_eq room ?_ rfl, readNumber_eq room ?_ rfl, readNumber_eq room ?_ rfl⟩
  · simp [getNumber, SortedMap.get, RoomInfo.fields]
  · simp [getNumber, SortedMap.get, RoomInfo.fields]
  · simp [getNumber, SortedMap.get, RoomInfo.fields]

theorem readPlayers_room (playersNumber : Nat) :
    WireRoomInfo.readPlayers (SortedMap.storeAll [] room.fields) playersNumber =
      (Json.readPlayers room.toJson playersNumber).map (·.map utf8) := by
  have hget : SortedMap.get messageKeyPlayers (SortedMap.storeAll [] room.fields) =
      some (match room.players with
        | some names => .array (names.map fun name => .string (utf8 name))
        | none => .null) := by
    rw [get_room]
    simp [SortedMap.get, RoomInfo.fields]
  have hlookup : room.toJson.lookup "players" = some (match room.players with
      | some names => .array (names.map .string)
      | none => .null) := rfl
  rw [WireRoomInfo.readPlayers, Json.readPlayers, hget, hlookup]
  cases room.players with
  | none => rfl
  | some names =>
    dsimp only
    rw [strings_utf8, Json.strings_eq_some_iff.mpr rfl]
    dsimp only
    rw [List.length_map]
    cases Json.checkSize playersNumber names.length with
    | ok => rfl
    | error => rfl

/-- From the object of a description the client reads what the description without its text gives it. -/
theorem readInfo_room : WireRoomInfo.readInfo (SortedMap.storeAll [] room.fields) =
    (Json.readInfo room.toJson).map ClientRoomInfo.wire := by
  obtain ⟨hname, hhost, hdescription, huser⟩ := readString_room room
  obtain ⟨hlimit, hnumber, hreserved⟩ := readNumber_room room
  have hname' : Json.readString room.toJson "name" = .ok room.name := rfl
  have hhost' : Json.readString room.toJson "host" = .ok room.host := rfl
  have hdescription' : Json.readString room.toJson "description" = .ok room.description := rfl
  have huser' : Json.readString room.toJson "userParam" = .ok room.userParam := rfl
  rw [WireRoomInfo.readInfo, Json.readInfo, hname, hhost, hdescription, hlimit, hnumber, hreserved, hname', hhost',
    hdescription', huser, huser']
  cases Json.readNumber room.toJson "playersLimit" with
  | error => rfl
  | ok playersLimit =>
    cases Json.readNumber room.toJson "playersNumber" with
    | error => rfl
    | ok playersNumber =>
      cases Json.readNumber room.toJson "playersReserved" with
      | error => rfl
      | ok playersReserved =>
        simp only [readPlayers_room, bind, Except.bind]
        cases Json.readPlayers room.toJson playersNumber with
        | error => rfl
        | ok => rfl

end

/-! ### Receiving -/

/-- What a `Session` is created with. -/
structure WireSession where
  ip : Bytes
  port : Nat
  playerName : Bytes
  sessionName : Bytes
  sessionId : Nat
deriving DecidableEq, Repr

/-- A call of `LobbyCallback`. -/
inductive WireLobbyCallback where
  | onJoined (room : WireRoomInfo)
  | onLeft (room : WireRoomInfo) (flags : Nat)
  | onRoomUpdate (room : WireRoomInfo) (sender : Bytes) (flags : Nat)
  | onMessage (room : WireRoomInfo) (sender message : Bytes)
  | onSessionStart (room : WireRoomInfo) (session : WireSession) (data : Bytes)
deriving DecidableEq, Repr

/-- How a call ends that does not return. -/
inductive LobbyFault where
  | assertion
  | protocolError (message : String)
deriving DecidableEq, Repr

/-! The flags of `onRoomUpdate` that the client sets itself. -/

def flagReconfiguredByHost : Nat := 1 <<< 5
def flagReconfigureFail : Nat := 1 <<< 6

/-- The fields of a `Lobby` that `receive` and the answers concern. -/
structure WireLobby where
  myRoom : WireRoomInfo
  playerName : Bytes
  isJoined : Bool
  isHost : Bool
deriving DecidableEq, Repr

/-- The object after a call, the callbacks made, and how the call failed if it did not return. -/
structure WireLobbyTurn where
  lobby : WireLobby
  callbacks : List WireLobbyCallback
  fault : Option LobbyFault
deriving DecidableEq, Repr

/-- What a call of `receive` leaves, the number that it returns, and the texts that it does not take. -/
structure WireReceipt extends WireLobbyTurn where
  counter : Nat
  rest : List Bytes

/-- The `Lobby` with its strings as bytes. -/
def Lobby.wire (s : Lobby) : WireLobby := ⟨s.myRoom.toClient.wire, utf8 s.playerName, s.isJoined, s.isHost⟩

/-- `get<Object>` with an empty default. -/
def getObject (key : Bytes) (fields : Fields Int) : Fields Int :=
  match SortedMap.get key fields with
  | some (.object fields) => fields
  | _ => []

namespace WireLobby

variable (N : NumberFormat Int) (s : WireLobby)

/-- The call returns after calling back. -/
def returns (callbacks : List WireLobbyCallback) : WireLobbyTurn := ⟨s, callbacks, none⟩

/-- The call ends with this fault. -/
def throws (fault : LobbyFault) : WireLobbyTurn := ⟨s, [], some fault⟩

/-- The branches of `receive` that read the room first: what comes after it, where it is read. -/
def receiveRoom (messageJson : Fields Int) (andThen : WireLobby → WireLobbyTurn) : WireLobbyTurn :=
  match WireRoomInfo.readInfo (getObject messageKeyRoom messageJson) with
  | .ok room => andThen { s with myRoom := room }
  | .error .missing => s.returns []
  | .error .assertion => s.throws .assertion

/-- The constructor of `Session`, with its assertions. -/
def createSession (ip : Bytes) (port : Nat) (playerName sessionName : Bytes) (sessionId : Nat) : Option WireSession :=
  if ip ≠ [] ∧ playerName ≠ [] ∧ sessionName ≠ [] then some ⟨ip, port, playerName, sessionName, sessionId⟩ else none

/-- The branch of `receive` for the object that has been parsed. -/
def dispatchObject (messageJson : Fields Int) : WireLobbyTurn :=
  let messageClass := (getString messageKeyClass messageJson).getD []
  let flags := narrowCast 8 ((getNumber messageKeyFlags messageJson).getD 0)
  if isMessageClass messageClass frontend.broadcast then
    s.receiveRoom messageJson fun s =>
      match getString messageKeySender messageJson, flags with
      | some sender, some flags => s.returns [.onRoomUpdate s.myRoom sender flags]
      | _, _ => s.throws .assertion
  else if isMessageClass messageClass frontend.sessionStarted then
    match narrowCast 16 ((getNumber messageKeyPort messageJson).getD 0),
        narrowCast 32 ((getNumber messageKeyId messageJson).getD 0) with
    | some port, some sessionId =>
      match createSession ((getString messageKeyIp messageJson).getD []) port s.playerName
          ((getString messageKeyName messageJson).getD []) sessionId with
      | some session =>
        s.returns [.onSessionStart s.myRoom session ((getString messageKeyData messageJson).getD [])]
      | none => s.throws .assertion
    | _, _ => s.throws .assertion
  else if isMessageClass messageClass frontend.ejected then
    match flags with
    | some flags => { s with isJoined := false }.returns [.onLeft s.myRoom flags]
    | none => s.throws .assertion
  else if isMessageClass messageClass frontend.message then
    s.returns [.onMessage s.myRoom ((getString messageKeySender messageJson).getD [])
      ((getString messageKeyData messageJson).getD [])]
  else if isMessageClass messageClass frontend.reconfigureSucc then
    s.receiveRoom messageJson fun s => s.returns [.onRoomUpdate s.myRoom s.myRoom.hostName flagReconfiguredByHost]
  else if isMessageClass messageClass frontend.reconfigureSuck then
    if s.myRoom.hostName = s.playerName then
      s.returns [.onRoomUpdate s.myRoom s.playerName flagReconfigureFail]
    else s.throws .assertion
  else s.throws (.protocolError "Lobby[receive]: Unknown message type")

/-- One round of the loop of `receive`. -/
def receiveText (message : Bytes) : WireLobbyTurn := s.dispatchObject (parse N (IStream.ofText message)).2.1

/-- The loop of `receive`, where `tryReceive` returns these texts and then nothing. -/
def receiveTextLoop : List Bytes → WireLobby → WireReceipt
  | [], s => ⟨s.returns [], 0, []⟩
  | message :: rest, s =>
    if s.isJoined then
      if message = [] then ⟨s.returns [], 0, rest⟩
      else
        let t := s.receiveText N message
        match t.fault with
        | none =>
          let r := receiveTextLoop rest t.lobby
          ⟨⟨r.lobby, t.callbacks ++ r.callbacks, r.fault⟩, r.counter + 1, r.rest⟩
        | some _ => ⟨t, 0, rest⟩
    else ⟨s.returns [], 0, message :: rest⟩

/-- `receive` on the texts in the socket. -/
def receiveTexts (texts : List Bytes) : WireReceipt :=
  if s.isJoined then receiveTextLoop N texts s
  else ⟨s.throws (.protocolError "Lobby[broadcast]: I'm not in a room!"), 0, texts⟩

end WireLobby

/-! ### Texts of messages -/

/-- The fields of the room that a message describes, in any order. -/
def RoomMessage.Describes (m : RoomMessage) (roomFields : Fields Int) : Prop :=
  ∀ room ∈ m.room, roomFields.Perm room.fields

/-- The texts that carry a message: every JSON text of it, the fields of its objects in any order, white space before
    it and whatever after it. -/
inductive CarriesMessage (N : NumberFormat Int) : RoomMessage → Bytes → Prop where
  | json {m : RoomMessage} {w t rest : Bytes} {roomFields fields : Fields Int} (describes : m.Describes roomFields)
    (order : fields.Perm (m.fields roomFields)) (blank : Blank w)
    (spells : Spells asciiUnit N.Spelled (.value (.object fields)) t) : CarriesMessage N m (w ++ t ++ rest)

/-- The texts that carry the description of a room. -/
inductive CarriesRoom (N : NumberFormat Int) : RoomInfo → Bytes → Prop where
  | json {room : RoomInfo} {w t rest : Bytes} {fields : Fields Int} (order : fields.Perm room.fields)
    (blank : Blank w) (spells : Spells asciiUnit N.Spelled (.value (.object fields)) t) :
    CarriesRoom N room (w ++ t ++ rest)

section
variable {N : NumberFormat Int} {m : RoomMessage} {room : RoomInfo}

theorem normalFields_eq_map (fields : Fields Int) : normalFields fields = fields.map fun e => (e.1, e.2.normal) := by
  induction fields with
  | nil => rfl
  | cons e fields ih => rw [normalFields, List.map_cons, ih]

theorem roomFields_flat (room : RoomInfo) : Flat room.fields := by
  have hnames : ∀ names : List String,
      normalAll (names.map fun name => Value.string (ν := Int) (utf8 name)) =
        names.map fun name => .string (utf8 name) := by
    intro names
    induction names with
    | nil => rfl
    | cons name names ih => exact congrArg (Value.string (utf8 name) :: ·) ih
  cases hplayers : room.players with
  | none => simp [Flat, RoomInfo.fields, Value.normal, hplayers]
  | some names => simp [Flat, RoomInfo.fields, Value.normal, hplayers, hnames]

theorem roomMessage_fields_nodup (m : RoomMessage) (roomFields : Fields Int) :
    ((m.fields roomFields).map (·.1)).Nodup := by
  cases m <;> simp [RoomMessage.fields, classFields]

/-- What the object holds after a text of the message has been parsed. -/
def RoomMessage.held (m : RoomMessage) : Fields Int :=
  SortedMap.storeAll [] (m.fields (match m.room with
    | some room => SortedMap.storeAll [] room.fields
    | none => []))

theorem parse_room {t : Bytes} (h : CarriesRoom N room t) :
    (parse N (IStream.ofText t)).2.1 = SortedMap.storeAll [] room.fields := by
  cases h with
  | @json w t rest fields order blank spells =>
    have hflat : Flat fields := fun e he => roomFields_flat room e (order.mem_iff.mp he)
    have hnodup : (fields.map (·.1)).Nodup := (order.map _).nodup_iff.mpr (roomFields_nodup room)
    rw [parse_object N (spells.mono fun _ _ => byteUnit_of_asciiUnit) blank, normalFields_flat hflat,
      SortedMap.storeAll_perm hnodup order]

theorem normalFields_message {roomFields : Fields Int} (describes : m.Describes roomFields) :
    normalFields (m.fields roomFields) = m.fields (match m.room with
      | some room => SortedMap.storeAll [] room.fields
      | none => []) := by
  have hroom : ∀ room : RoomInfo, roomFields.Perm room.fields →
      SortedMap.storeAll [] (normalFields roomFields) = SortedMap.storeAll [] room.fields := by
    intro room order
    have hflat : Flat roomFields := fun e he => roomFields_flat room e (order.mem_iff.mp he)
    have hnodup : (roomFields.map (·.1)).Nodup := (order.map _).nodup_iff.mpr (roomFields_nodup room)
    rw [normalFields_flat hflat, SortedMap.storeAll_perm hnodup order]
  cases m with
  | update room data sender toSelf flags =>
    simp [RoomMessage.fields, classFields, normalFields, hroom room (describes room rfl), Value.normal,
      RoomMessage.room]
  | reconfigureSucc room =>
    simp [RoomMessage.fields, classFields, normalFields, hroom room (describes room rfl), Value.normal,
      RoomMessage.room]
  | _ => rfl

theorem parse_roomMessage {t : Bytes} (h : CarriesMessage N m t) : (parse N (IStream.ofText t)).2.1 = m.held := by
  cases h with
  | @json w t rest roomFields fields describes order blank spells =>
    have hnormal : (normalFields fields).Perm (normalFields (m.fields roomFields)) := by
      rw [normalFields_eq_map, normalFields_eq_map]
      exact order.map _
    have hnodup : ((normalFields fields).map (·.1)).Nodup := by
      rw [(hnormal.map _).nodup_iff, normalFields_message describes]
      exact roomMessage_fields_nodup m _
    rw [parse_object N (spells.mono fun _ _ => byteUnit_of_asciiUnit) blank, SortedMap.storeAll_perm hnodup hnormal,
      normalFields_message describes]
    rfl

theorem get_message (m : RoomMessage) (key : Bytes) : SortedMap.get key m.held = SortedMap.get key (m.fields
    (match m.room with
      | some room => SortedMap.storeAll [] room.fields
      | none => [])) := by
  rw [RoomMessage.held, SortedMap.get_storeAll (roomMessage_fields_nodup m _), SortedMap.get_nil, Option.or_none]

theorem getString_message (m : RoomMessage) (key : Bytes) : getString key m.held = getString key (m.fields
    (match m.room with
      | some room => SortedMap.storeAll [] room.fields
      | none => [])) := by
  rw [getString, get_message, getString]

theorem getNumber_message (m : RoomMessage) (key : Bytes) : getNumber key m.held = getNumber key (m.fields
    (match m.room with
      | some room => SortedMap.storeAll [] room.fields
      | none => [])) := by
  rw [getNumber, get_message, getNumber]

theorem getObject_message (h : m.room = some room) :
    getObject messageKeyRoom m.held = SortedMap.storeAll [] room.fields := by
  rw [getObject, get_message, h]
  cases m with
  | update => simp [SortedMap.get, RoomMessage.fields, classFields]
  | reconfigureSucc => simp [SortedMap.get, RoomMessage.fields, classFields]
  | _ => cases h

/-- The class of each message, as `receive` compares it. -/
def RoomMessage.className : RoomMessage → String
  | .closeRoom => "FrontendMessage$CloseRoom"
  | .joinRoom .. => "FrontendMessage$JoinRoom"
  | .leaveRoom => "FrontendMessage$LeaveRoom"
  | .ejectPlayer .. => "FrontendMessage$EjectPlayer"
  | .startSession .. => "FrontendMessage$StartSession"
  | .sessionStarted .. => "FrontendMessage$SessionStarted"
  | .update .. => "FrontendMessage$Update"
  | .ejected .. => "FrontendMessage$Ejected"
  | .message .. => "FrontendMessage$Message"
  | .reconfigure .. => "FrontendMessage$Reconfigure"
  | .reconfigureSuck => "FrontendMessage$ReconfigureSuck"
  | .reconfigureSucc .. => "FrontendMessage$ReconfigureSucc"

theorem getString_roomClass (m : RoomMessage) : getString messageKeyClass m.held = some (utf8 m.className) := by
  rw [getString_message]
  cases m <;> simp [getString, SortedMap.get, RoomMessage.fields, classFields, RoomMessage.className]

theorem isMessageClass_roomClass (m : RoomMessage) (expected : String) :
    isMessageClass (utf8 m.className) (utf8 expected) = decide (m.className = expected) := by
  refine isMessageClass_utf8 ?_ expected
  cases m <;> (dsimp only [RoomMessage.className]; decide +kernel)

/-- What `makeEnvelop` packs. -/
def packedText (N : NumberFormat Int) (m : RoomMessage) : Bytes := json N (SortedMap.storeAll [] (m.fields []))

/-- The numbers of a message; all of them have to be written without rounding. -/
def RoomMessage.numbers : RoomMessage → List Int
  | .reconfigure playersLimit playersReserved => [playersLimit, playersReserved]
  | .sessionStarted _ port _ id _ => [port, id]
  | .update _ _ _ _ flags => [flags]
  | .ejected flags => [flags]
  | _ => []

/-- The text packed for a message without a room carries it. -/
theorem packedText_carries (hroom : m.room = none) (hexact : ∀ x ∈ m.numbers, N.Exact x) :
    CarriesMessage N m (packedText N m) := by
  have hwritable : Writable N (.object (SortedMap.storeAll [] (m.fields []))) := by
    refine writable_storeAll (roomMessage_fields_nodup m []) ?_
    cases m with
    | update => cases hroom
    | reconfigureSucc => cases hroom
    | _ => simp_all [FieldsWritable, RoomMessage.fields, classFields, Writable, RoomMessage.numbers]
  obtain ⟨t, w, htext, -, hspells⟩ := json_spells hwritable
  have hdescribes : m.Describes [] := by
    intro room hmem
    rw [hroom] at hmem
    cases hmem
  rw [packedText, htext, ← List.nil_append t]
  exact .json hdescribes (SortedMap.storeAll_perm_append (roomMessage_fields_nodup m [])) (List.forall_mem_nil _)
    hspells

end

/-! ### Messages received -/

namespace Lobby

/-- The client can read the message, and its assertions hold. -/
def Accepts (s : Lobby) : RoomMessage → Prop
  | .update room _ _ _ flags => room.Readable ∧ 0 ≤ flags ∧ flags < 2 ^ 8
  | .sessionStarted ip port name id _ => (ip ≠ "" ∧ s.playerName ≠ "" ∧ name ≠ "") ∧
    (0 ≤ port ∧ port < 2 ^ 16) ∧ 0 ≤ id ∧ id < 2 ^ 32
  | .ejected flags => 0 ≤ flags ∧ flags < 2 ^ 8
  | .message .. => True
  | .reconfigureSucc room => room.Readable
  | .reconfigureSuck => s.myRoom.host = s.playerName
  | _ => False

/-- The messages that calls of `receive` take, until the player is not in the room. -/
def taken (s : Lobby) : List RoomMessage → List RoomMessage
  | [] => []
  | m :: ms => if s.isJoined then m :: taken (s.receive m) ms else []

/-- What `receive` tells the program of a message. -/
def callbacks (s : Lobby) : RoomMessage → List WireLobbyCallback
  | .update room _ sender _ flags => [.onRoomUpdate room.toClient.wire (utf8 sender) flags.toNat]
  | .sessionStarted ip port name id data =>
    [.onSessionStart s.wire.myRoom ⟨utf8 ip, port.toNat, utf8 s.playerName, utf8 name, id.toNat⟩ (utf8 data)]
  | .ejected flags => [.onLeft s.wire.myRoom flags.toNat]
  | .message sender data _ => [.onMessage s.wire.myRoom (utf8 sender) (utf8 data)]
  | .reconfigureSucc room => [.onRoomUpdate room.toClient.wire (utf8 room.host) flagReconfiguredByHost]
  | .reconfigureSuck => [.onRoomUpdate s.wire.myRoom (utf8 s.playerName) flagReconfigureFail]
  | _ => []

end Lobby

section
variable {N : NumberFormat Int} {m : RoomMessage} {s : Lobby}

theorem narrowCast_toNat {width : Nat} {x : Int} (hlow : 0 ≤ x) (hhigh : x < 2 ^ width) :
    narrowCast width x = some x.toNat := by
  refine narrowCast_eq_some_iff.mpr ⟨(Int.toNat_of_nonneg hlow).symm, ?_⟩
  refine Int.ofNat_lt.mp ?_
  rw [Int.toNat_of_nonneg hlow]
  exact_mod_cast hhigh

theorem receiveRoom_readable {room : RoomInfo} (hroom : m.room = some room) (readable : room.Readable)
    (andThen : WireLobby → WireLobbyTurn) : s.wire.receiveRoom m.held andThen =
      andThen { s with myRoom := room : Lobby }.wire := by
  rw [WireLobby.receiveRoom, getObject_message hroom, readInfo_room, RoomInfo.readInfo_toJson_iff.mpr ⟨readable, rfl⟩]
  rfl

/-- The branch for the object is the one for the message. -/
theorem dispatchObject_roomMessage (joined : s.isJoined = true) (accepts : s.Accepts m) :
    s.wire.dispatchObject m.held = (s.receive m).wire.returns (s.callbacks m) := by
  rw [WireLobby.dispatchObject, getString_roomClass]
  simp only [Option.getD_some, isMessageClass_roomClass]
  cases m with
  | update room data sender toSelf flags =>
    obtain ⟨readable, hlow, hhigh⟩ := accepts
    have hsender : getString messageKeySender (RoomMessage.update room data sender toSelf flags).held =
        some (utf8 sender) := by
      rw [getString_message]
      simp [getString, SortedMap.get, RoomMessage.fields, classFields]
    have hflags : getNumber messageKeyFlags (RoomMessage.update room data sender toSelf flags).held = some flags := by
      rw [getNumber_message]
      simp [getNumber, SortedMap.get, RoomMessage.fields, classFields]
    have hcast : narrowCast 8 flags = some flags.toNat := narrowCast_toNat hlow hhigh
    have hreceive : s.receive (.update room data sender toSelf flags) = { s with myRoom := room } := if_pos joined
    simp only [RoomMessage.className, decide_true, ↓reduceIte]
    rw [hsender, hflags, Option.getD_some, hcast, receiveRoom_readable rfl readable, hreceive]
    rfl
  | sessionStarted ip port name id data =>
    obtain ⟨⟨hip, hplayer, hname⟩, ⟨hport, hport'⟩, hid, hid'⟩ := accepts
    have hfields : getString messageKeyIp (RoomMessage.sessionStarted ip port name id data).held = some (utf8 ip) ∧
        getNumber messageKeyPort (RoomMessage.sessionStarted ip port name id data).held = some port ∧
        getString messageKeyName (RoomMessage.sessionStarted ip port name id data).held = some (utf8 name) ∧
        getNumber messageKeyId (RoomMessage.sessionStarted ip port name id data).held = some id ∧
        getString messageKeyData (RoomMessage.sessionStarted ip port name id data).held = some (utf8 data) := by
      simp only [getString_message, getNumber_message]
      simp [getString, getNumber, SortedMap.get, RoomMessage.fields, classFields]
    obtain ⟨hgetIp, hgetPort, hgetName, hgetId, hgetData⟩ := hfields
    have hcreate : WireLobby.createSession (utf8 ip) port.toNat s.wire.playerName (utf8 name) id.toNat =
        some ⟨utf8 ip, port.toNat, utf8 s.playerName, utf8 name, id.toNat⟩ :=
      if_pos ⟨utf8_eq_nil_iff.not.mpr hip, utf8_eq_nil_iff.not.mpr hplayer, utf8_eq_nil_iff.not.mpr hname⟩
    have hreceive : s.receive (.sessionStarted ip port name id data) = s := if_pos joined
    simp only [RoomMessage.className, String.reduceEq, decide_false, decide_true, Bool.false_eq_true, ↓reduceIte]
    rw [hgetIp, hgetPort, hgetName, hgetId, hgetData, hreceive]
    simp only [Option.getD_some, narrowCast_toNat hport hport', narrowCast_toNat hid hid', hcreate]
    rfl
  | ejected flags =>
    obtain ⟨hlow, hhigh⟩ := accepts
    have hflags : getNumber messageKeyFlags (RoomMessage.ejected flags).held = some flags := by
      rw [getNumber_message]
      simp [getNumber, SortedMap.get, RoomMessage.fields, classFields]
    have hreceive : s.receive (.ejected flags) = { s with isJoined := false } := if_pos joined
    simp only [RoomMessage.className, String.reduceEq, decide_false, decide_true, Bool.false_eq_true, ↓reduceIte]
    rw [hflags, Option.getD_some, narrowCast_toNat hlow hhigh, hreceive]
    rfl
  | message sender data toSelf =>
    have hfields : getString messageKeySender (RoomMessage.message sender data toSelf).held = some (utf8 sender) ∧
        getString messageKeyData (RoomMessage.message sender data toSelf).held = some (utf8 data) := by
      simp only [getString_message]
      simp [getString, SortedMap.get, RoomMessage.fields, classFields]
    have hreceive : s.receive (.message sender data toSelf) = s := if_pos joined
    simp only [RoomMessage.className, String.reduceEq, decide_false, decide_true, Bool.false_eq_true, ↓reduceIte]
    rw [hfields.1, hfields.2, hreceive]
    rfl
  | reconfigureSucc room =>
    have hreceive : s.receive (.reconfigureSucc room) = { s with myRoom := room } := if_pos joined
    simp only [RoomMessage.className, String.reduceEq, decide_false, decide_true, Bool.false_eq_true, ↓reduceIte]
    rw [receiveRoom_readable rfl accepts, hreceive]
    rfl
  | reconfigureSuck =>
    have hhost : s.wire.myRoom.hostName = s.wire.playerName := congrArg utf8 accepts
    have hreceive : s.receive .reconfigureSuck = s := if_pos joined
    simp only [RoomMessage.className, String.reduceEq, decide_false, decide_true, Bool.false_eq_true, ↓reduceIte]
    rw [if_pos hhost, hreceive]
    rfl
  | _ => exact absurd accepts not_false

theorem receiveRoom_fault {s : WireLobby} {messageJson : Fields Int} {andThen : WireLobby → WireLobbyTurn}
    {what : String} (h : ∀ s, (andThen s).fault ≠ some (.protocolError what)) :
    (s.receiveRoom messageJson andThen).fault ≠ some (.protocolError what) := by
  unfold WireLobby.receiveRoom
  split
  · exact h _
  · rintro ⟨⟩
  · rintro ⟨⟩

/-- The texts that `receive` throws a `ProtocolError` for are those of the messages that it does not know; on the others
    it returns, or fails an assertion. -/
theorem receiveText_protocolError_iff {t : Bytes} (h : CarriesMessage N m t) (s : Lobby) :
    (∃ what, (s.wire.receiveText N t).fault = some (.protocolError what)) ↔ s.dispatch (.json m) = none := by
  rw [WireLobby.receiveText, parse_roomMessage h, WireLobby.dispatchObject, getString_roomClass]
  simp only [Option.getD_some, isMessageClass_roomClass]
  have known {turn : WireLobbyTurn} (hfault : ∀ what, turn.fault ≠ some (.protocolError what))
      (hdispatch : s.dispatch (.json m) ≠ none) :
      (∃ what, turn.fault = some (.protocolError what)) ↔ s.dispatch (.json m) = none := by
    refine iff_of_false ?_ hdispatch
    rintro ⟨what, hwhat⟩
    exact hfault what hwhat
  cases m with
  | update room data sender toSelf flags =>
    simp only [RoomMessage.className, decide_true, ↓reduceIte]
    refine known (fun what => receiveRoom_fault fun s => ?_) (by rintro ⟨⟩)
    split
    · rintro ⟨⟩
    · rintro ⟨⟩
  | sessionStarted ip port name id data =>
    simp only [RoomMessage.className, String.reduceEq, decide_false, decide_true, Bool.false_eq_true, ↓reduceIte]
    refine known (fun what => ?_) (by rintro ⟨⟩)
    split
    · split
      · rintro ⟨⟩
      · rintro ⟨⟩
    · rintro ⟨⟩
  | ejected flags =>
    simp only [RoomMessage.className, String.reduceEq, decide_false, decide_true, Bool.false_eq_true, ↓reduceIte]
    refine known (fun what => ?_) (by rintro ⟨⟩)
    split
    · rintro ⟨⟩
    · rintro ⟨⟩
  | message sender data toSelf =>
    simp only [RoomMessage.className, String.reduceEq, decide_false, decide_true, Bool.false_eq_true, ↓reduceIte]
    exact known (by rintro what ⟨⟩) (by rintro ⟨⟩)
  | reconfigureSucc room =>
    simp only [RoomMessage.className, String.reduceEq, decide_false, decide_true, Bool.false_eq_true, ↓reduceIte]
    exact known (fun what => receiveRoom_fault fun s => by rintro ⟨⟩) (by rintro ⟨⟩)
  | reconfigureSuck =>
    simp only [RoomMessage.className, String.reduceEq, decide_false, decide_true, Bool.false_eq_true, ↓reduceIte]
    refine known (fun what => ?_) (by rintro ⟨⟩)
    split
    · rintro ⟨⟩
    · rintro ⟨⟩
  | _ => exact iff_of_true ⟨_, rfl⟩ rfl

theorem CarriesMessage.ne_nil {t : Bytes} (h : CarriesMessage N m t) : t ≠ [] := by
  cases h with
  | json describes order blank spells => exact text_ne_nil spells

theorem receiveTextLoop_messages {ms : List RoomMessage} {texts : List Bytes}
    (h : List.Forall₂ (CarriesMessage N) ms texts) (s : Lobby)
    (accepts : Machine.Along Lobby.receive Lobby.Accepts s (s.taken ms)) :
    WireLobby.receiveTextLoop N texts s.wire =
      ⟨(Machine.run Lobby.receive s (s.taken ms)).wire.returns
        (Machine.outputs Lobby.receive Lobby.callbacks s (s.taken ms)), (s.taken ms).length,
        texts.drop (s.taken ms).length⟩ := by
  induction h generalizing s with
  | nil => rfl
  | @cons m t ms texts hcarries _ ih =>
    rw [WireLobby.receiveTextLoop]
    unfold Lobby.taken at accepts ⊢
    have hjoined : s.wire.isJoined = s.isJoined := rfl
    rw [hjoined]
    split
    · rename_i joined
      rw [if_pos joined] at accepts
      obtain ⟨haccepts, hrest⟩ := accepts
      have hturn : s.wire.receiveText N t = (s.receive m).wire.returns (s.callbacks m) := by
        rw [WireLobby.receiveText, parse_roomMessage hcarries]
        exact dispatchObject_roomMessage joined haccepts
      rw [if_neg hcarries.ne_nil, hturn]
      dsimp only [WireLobby.returns]
      rw [ih (s.receive m) hrest]
      rfl
    · rfl

/-- A call of `receive` on texts that carry messages handles these messages up to the one that ends the player's stay:
    the program is told of each as the message is, the object is what the messages make of it, and the texts that
    follow are left for later. -/
theorem receiveTexts_messages {ms : List RoomMessage} {texts : List Bytes}
    (h : List.Forall₂ (CarriesMessage N) ms texts) (s : Lobby) (joined : s.isJoined = true)
    (accepts : Machine.Along Lobby.receive Lobby.Accepts s (s.taken ms)) :
    s.wire.receiveTexts N texts =
      ⟨(Machine.run Lobby.receive s (s.taken ms)).wire.returns
        (Machine.outputs Lobby.receive Lobby.callbacks s (s.taken ms)), (s.taken ms).length,
        texts.drop (s.taken ms).length⟩ := by
  have hjoined : s.wire.isJoined = true := joined
  rw [WireLobby.receiveTexts, if_pos hjoined]
  exact receiveTextLoop_messages h s accepts

theorem receiveTexts_messages_ejected :
    (Lobby.wire { Lobby.create with isJoined := true }).receiveTexts integers
      [packedText integers (.message "Ann" "hi" true), packedText integers (.ejected 17),
        packedText integers .reconfigureSuck] =
      ⟨(Lobby.wire Lobby.create).returns [.onMessage Lobby.create.wire.myRoom (utf8 "Ann") (utf8 "hi"),
        .onLeft Lobby.create.wire.myRoom 17], 2, [packedText integers .reconfigureSuck]⟩ := by
  have hcarries : List.Forall₂ (CarriesMessage integers)
      [.message "Ann" "hi" true, .ejected 17, .reconfigureSuck]
      [packedText integers (.message "Ann" "hi" true), packedText integers (.ejected 17),
        packedText integers .reconfigureSuck] := by
    refine .cons (packedText_carries rfl ?_) (.cons (packedText_carries rfl ?_)
      (.cons (packedText_carries rfl ?_) .nil))
    · exact List.forall_mem_nil _
    · exact (by decide : ∀ x ∈ [(17 : Int)], x.natAbs < 10 ^ 19)
    · exact List.forall_mem_nil _
  refine receiveTexts_messages hcarries { Lobby.create with isJoined := true } rfl ?_
  exact ⟨trivial, (by decide : (0 : Int) ≤ 17 ∧ (17 : Int) < 2 ^ 8), trivial⟩

end

end MultiSlider
