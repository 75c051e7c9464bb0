import MultiSlider.Lobby.Message

/-! The client's `Lobby` (`Lobby.cpp`). A call that throws, or whose assertion fails, sends nothing and changes nothing.
    `createRoom` and `joinRoom` wait for the server's answer; here they are two steps, the request and the answer. -/

namespace MultiSlider

/-- `createRoom` or `joinRoom` under this name waits for an answer. -/
structure Awaiting where
  playerName : String
  isHost : Bool
deriving DecidableEq, Repr

/-- The fields of a `Lobby`; `awaiting` is the call that has not returned. -/
structure Lobby where
  myRoom : RoomInfo
  playerName : String
  isJoined : Bool
  isHost : Bool
  awaiting : Option Awaiting
deriving DecidableEq, Repr

/-- The calls that send something. -/
inductive LobbyCall where
  | createRoom (playerName roomName description : String) (playersLimit playersReserved : UInt32)
      (userParameter : String)
  | reconfigure (playersLimit playersReserved : UInt32)
  | joinRoom (playerName : String) (room : RoomInfo)
  | leaveRoom
  | eject (playerName : String)
  | closeRoom
  | startSession (sessionData : String)
  | say (message : String) (toSelf : Bool)
deriving DecidableEq, Repr

namespace Lobby

/-- A `Lobby` that is connected. -/
def create : Lobby := ⟨⟨"", "", "", 0, 0, 0, some [], ""⟩, "", false, false, none⟩

variable (s : Lobby)

/-- `makeEnvelop`; its assertion fails where the object has not been in a room. -/
def makeEnvelop (data : RoomMessage) : Option FrontendMessage :=
  if s.myRoom.name ≠ "" then some (.envelop s.myRoom.name (some data)) else none

/-- The limits that `createRoom` and `reconfigure` let through. -/
def limitsOk (playersLimit playersReserved : UInt32) : Bool := 1 ≤ playersLimit && playersReserved ≤ playersLimit - 1

/-- `createRoom` up to its wait; it does not look at `mIsJoined`. -/
def createRoom (playerName roomName description : String) (playersLimit playersReserved : UInt32)
    (userParameter : String) : Option (Lobby × FrontendMessage) :=
  if playerName ≠ "" ∧ roomName ≠ "" ∧ limitsOk playersLimit playersReserved then
    some ({ s with awaiting := some ⟨playerName, true⟩ },
      .createRoom playerName roomName description playersLimit.toNat playersReserved.toNat userParameter)
  else none

/-- `reconfigure`, for the host. -/
def reconfigure (playersLimit playersReserved : UInt32) : Option (Lobby × FrontendMessage) :=
  if s.isJoined && s.isHost && limitsOk playersLimit playersReserved then
    (s.makeEnvelop (.reconfigure playersLimit.toNat playersReserved.toNat)).map (s, ·)
  else none

/-- `joinRoom` up to its wait; of the room it sends the name only. -/
def joinRoom (playerName : String) (room : RoomInfo) : Option (Lobby × FrontendMessage) :=
  if playerName ≠ "" ∧ room.name ≠ "" ∧ room.host ≠ "" ∧ ¬s.isJoined then
    some ({ s with awaiting := some ⟨playerName, false⟩ }, .joinRoom playerName room.name)
  else none

/-- `leaveRoom`, which does not wait for an answer. -/
def leaveRoom : Option (Lobby × FrontendMessage) :=
  if s.isJoined then (s.makeEnvelop .leaveRoom).map ({ s with isJoined := false }, ·) else none

/-- `eject`, for the host; whether there is such a player is left to the server. -/
def eject (playerName : String) : Option (Lobby × FrontendMessage) :=
  if s.isJoined && s.isHost then (s.makeEnvelop (.ejectPlayer playerName)).map (s, ·) else none

/-- `closeRoom`, for the host; it goes to the client actor, in no `Envelop`. -/
def closeRoom : Option (Lobby × FrontendMessage) := if s.isJoined && s.isHost then some (s, .closeRoom) else none

/-- `startSession`, with no look at `mIsJoined` or `mIsHost`. -/
def startSession (sessionData : String) : Option (Lobby × FrontendMessage) :=
  (s.makeEnvelop (.startSession sessionData)).map (s, ·)

/-- `say`, to the others or to all. -/
def say (message : String) (toSelf : Bool) : Option (Lobby × FrontendMessage) :=
  if s.isJoined then (s.makeEnvelop (.message s.playerName message toSelf)).map (s, ·) else none

/-- One call: the object after it and the message sent; `none` if the call throws or aborts, or cannot be made because
    another one has not returned. -/
def call (k : LobbyCall) : Option (Lobby × FrontendMessage) :=
  if s.awaiting.isSome then none
  else
    match k with
    | .createRoom playerName roomName description playersLimit playersReserved userParameter =>
      s.createRoom playerName roomName description playersLimit playersReserved userParameter
    | .reconfigure playersLimit playersReserved => s.reconfigure playersLimit playersReserved
    | .joinRoom playerName room => s.joinRoom playerName room
    | .leaveRoom => s.leaveRoom
    | .eject playerName => s.eject playerName
    | .closeRoom => s.closeRoom
    | .startSession sessionData => s.startSession sessionData
    | .say message toSelf => s.say message toSelf

/-- What a call that goes through does. -/
inductive Called (s : Lobby) : LobbyCall → Lobby → FrontendMessage → Prop where
  | creates {playerName roomName description : String} {playersLimit playersReserved : UInt32}
    {userParameter : String} :
    Called s (.createRoom playerName roomName description playersLimit playersReserved userParameter)
      { s with awaiting := some ⟨playerName, true⟩ }
      (.createRoom playerName roomName description playersLimit.toNat playersReserved.toNat userParameter)
  | joins {playerName : String} {room : RoomInfo} (out : s.isJoined = false) :
    Called s (.joinRoom playerName room) { s with awaiting := some ⟨playerName, false⟩ }
      (.joinRoom playerName room.name)
  | leaves (joined : s.isJoined = true) :
    Called s .leaveRoom { s with isJoined := false } (.envelop s.myRoom.name (some .leaveRoom))
  | reconfigures {playersLimit playersReserved : UInt32} (host : (s.isJoined && s.isHost) = true) :
    Called s (.reconfigure playersLimit playersReserved) s
      (.envelop s.myRoom.name (some (.reconfigure playersLimit.toNat playersReserved.toNat)))
  | ejects {playerName : String} (host : (s.isJoined && s.isHost) = true) :
    Called s (.eject playerName) s (.envelop s.myRoom.name (some (.ejectPlayer playerName)))
  | closes (host : (s.isJoined && s.isHost) = true) : Called s .closeRoom s .closeRoom
  | starts {sessionData : String} (named : s.myRoom.name ≠ "") :
    Called s (.startSession sessionData) s (.envelop s.myRoom.name (some (.startSession sessionData)))
  | speaks {message : String} {toSelf : Bool} (joined : s.isJoined = true) :
    Called s (.say message toSelf) s (.envelop s.myRoom.name (some (.message s.playerName message toSelf)))

variable {s} in
theorem makeEnvelop_map {data : RoomMessage} {after next : Lobby} {message : FrontendMessage}
    (h : (s.makeEnvelop data).map (after, ·) = some (next, message)) :
    s.myRoom.name ≠ "" ∧ next = after ∧ message = .envelop s.myRoom.name (some data) := by
  obtain ⟨built, hbuilt, heq⟩ := Option.map_eq_some_iff.mp h
  obtain ⟨hnamed, hmessage⟩ := Option.ite_none_right_eq_some.mp hbuilt
  cases heq
  exact ⟨hnamed, rfl, (Option.some.inj hmessage).symm⟩

variable {s} in
theorem call_called {k : LobbyCall} {next : Lobby} {message : FrontendMessage} (h : s.call k = some (next, message)) :
    s.awaiting = none ∧ Called s k next message := by
  unfold call at h
  split at h
  · cases h
  · rename_i hidle
    refine ⟨by simpa using hidle, ?_⟩
    cases k with
    | createRoom playerName roomName description playersLimit playersReserved userParameter =>
      obtain ⟨-, heq⟩ := Option.ite_none_right_eq_some.mp h
      cases heq
      exact .creates
    | joinRoom playerName room =>
      obtain ⟨⟨-, -, -, hout⟩, heq⟩ := Option.ite_none_right_eq_some.mp h
      cases heq
      exact .joins (by simpa using hout)
    | leaveRoom =>
      obtain ⟨hjoined, hsent⟩ := Option.ite_none_right_eq_some.mp h
      obtain ⟨-, rfl, rfl⟩ := makeEnvelop_map hsent
      exact .leaves hjoined
    | reconfigure playersLimit playersReserved =>
      obtain ⟨hhost, hsent⟩ := Option.ite_none_right_eq_some.mp h
      obtain ⟨-, rfl, rfl⟩ := makeEnvelop_map hsent
      exact .reconfigures ((Bool.and_eq_true _ _).mp hhost).1
    | eject playerName =>
      obtain ⟨hhost, hsent⟩ := Option.ite_none_right_eq_some.mp h
      obtain ⟨-, rfl, rfl⟩ := makeEnvelop_map hsent
      exact .ejects hhost
    | closeRoom =>
      obtain ⟨hhost, heq⟩ := Option.ite_none_right_eq_some.mp h
      cases heq
      exact .closes hhost
    | startSession sessionData =>
      obtain ⟨hnamed, rfl, rfl⟩ := makeEnvelop_map h
      exact .starts hnamed
    | say text toSelf =>
      obtain ⟨hjoined, hsent⟩ := Option.ite_none_right_eq_some.mp h
      obtain ⟨-, rfl, rfl⟩ := makeEnvelop_map hsent
      exact .speaks hjoined

/-- The call that waits returns; `response` is the room described by the answer, `none` if the answer is a
    refusal or does not come in time. -/
def answered (response : Option RoomInfo) : Lobby :=
  match s.awaiting with
  | some waiting =>
    match response with
    | some room => ⟨room, waiting.playerName, true, waiting.isHost, none⟩
    | none => { s with awaiting := none }
  | none => s

/-- `receive` takes one message from the connection. -/
def receive (message : RoomMessage) : Lobby :=
  if s.isJoined then
    match message with
    | .update room _ _ _ _ => { s with myRoom := room }
    | .reconfigureSucc room => { s with myRoom := room }
    | .ejected _ => { s with isJoined := false }
    | _ => s
  else s

end Lobby

end MultiSlider
