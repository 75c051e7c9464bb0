import MultiSlider.Lobby.Depot

/-! The actor of one room (`LobbyActor2.scala`). Handling a message gives the actor after it, the registry
    after it, what was written on the connections, and the messages forwarded to the actor itself. -/

namespace MultiSlider

/-- A player of the room; `ready` is written and not read. -/
structure PlayerInfo2 where
  actor : Connection
  name : String
  ready : Bool
deriving DecidableEq, Repr

/-- The message handler in use: `receive`, `running` or `zombie`. -/
inductive Behaviour where
  | initial
  | running
  | zombie
deriving DecidableEq, Repr

/-- The fields of the actor, and the handler that it uses. -/
structure LobbyActor2 where
  behaviour : Behaviour
  stopped : Bool
  name : String
  description : String
  players : List PlayerInfo2
  playersLimit : Int
  playersReserved : Int
  userParam : String
deriving DecidableEq, Repr

/-- What can be in the actor's mailbox; a JSON string is `none` if it is no message. -/
inductive LobbyMessage where
  | init (hostName roomName description : String) (playersLimit playersReserved : Int) (userParam : String)
  | join (playerName : String)
  | close
  | disconnected
  | json (raw : Option RoomMessage)
  | update (room : RoomInfo) (data senderName : String) (toSelf : Bool) (flags : Int)
deriving DecidableEq, Repr

/-- What handling a message comes to. -/
structure LobbyOutcome where
  lobby : LobbyActor2
  depot : Depot
  writes : List Write
  forwards : List LobbyMessage

namespace LobbyActor2

/-- A new actor. -/
def create : LobbyActor2 := ⟨.initial, false, "", "", [], 0, 0, ""⟩

variable (a : LobbyActor2) (d : Depot) (sender : Connection)

/-- The handler ended normally. -/
def done (writes : List Write) (forwards : List LobbyMessage) : LobbyOutcome := ⟨a, d, writes, forwards⟩

/-- `getHost`; it throws where there is no player. -/
def getHost : Option PlayerInfo2 := a.players.head?

/-- `makeRoomInfo`; it throws where there is no host. -/
def makeRoomInfo : Option RoomInfo :=
  a.getHost.map fun host => ⟨a.name, host.name, a.description, a.playersLimit, a.playersReserved, a.players.length,
    some (a.players.map (·.name)), a.userParam⟩

/-- `ejectPlayer` tells the player; it is the caller that takes the player off the list. -/
def ejectPlayer (player : PlayerInfo2) (flags : Nat) : Write := ⟨player.actor, .json (.ejected flags)⟩

/-- `context.stop(self)`. -/
def shutdown : LobbyActor2 := { a with stopped := true }

/-- `Init` of a new actor. -/
def init (self : LobbyRef) (hostName roomName description : String) (playersLimit playersReserved : Int)
    (userParam : String) : LobbyOutcome :=
  let a := { a with
    name := roomName
    description
    playersLimit
    playersReserved
    players := a.players ++ [PlayerInfo2.mk sender hostName false]
    userParam }
  match a.makeRoomInfo with
  | some room =>
    match d.registerLobby self room with
    | (d, .succ) => { a with behaviour := .running }.done d [⟨sender, .room room⟩] []
    | (d, .roomExists) => { a with behaviour := .zombie }.done d [⟨sender, .text responseRoomExists⟩] []
    | (d, .suck) => { a with behaviour := .zombie }.done d [⟨sender, .text responseSuck⟩] []
  | none => a.done d [] []

/-! ### Messages while running -/

/-- The answer of the `catch` block. -/
def raise : LobbyOutcome := a.done d [⟨sender, .text responseSuck⟩] []

/-- `StartSession`; `answer` is that of the backend, `none` if it does not come in time. -/
def startSession (answer : Option Int) (data : String) : LobbyOutcome :=
  match answer with
  | some sessionId =>
    if sessionId ≥ 0 then
      a.done d (a.players.map fun player =>
        ⟨player.actor, .json (.sessionStarted d.ipBackend d.portBackend a.name sessionId data)⟩) []
    else a.done d [⟨sender, .text responseSuck⟩] []
  | none => a.raise d sender

/-- `EjectPlayer`. -/
def eject (playerName : String) : LobbyOutcome :=
  match a.getHost with
  | some host =>
    if host.actor = sender ∧ host.name ≠ playerName then
      match a.players.find? (fun player => player.name = playerName) with
      | some player =>
        let b := { a with players := a.players.erase player }
        match b.makeRoomInfo with
        | some room => b.done d [ejectPlayer player flagEjected] [.update room "" playerName true flagLeft]
        | none => ⟨b, d, [ejectPlayer player flagEjected, ⟨sender, .text responseSuck⟩], []⟩
      | none => a.done d [] []
    else a.done d [] []
  | none => a.raise d sender

/-- `Reconfigure`. -/
def reconfigure (newLimit newReserved : Int) : LobbyOutcome :=
  match a.getHost with
  | some host =>
    if host.actor = sender then
      if a.players.length > toInt (newLimit - newReserved) then a.done d [⟨sender, .json .reconfigureSuck⟩] []
      else
        let b := { a with playersLimit := newLimit, playersReserved := newReserved }
        match b.makeRoomInfo with
        | some room =>
          b.done (d.updateRoomInfo a.name room)
            (b.players.map fun player => ⟨player.actor, .json (.reconfigureSucc room)⟩) []
        | none => b.raise d sender
    else a.done d [] []
  | none => a.raise d sender

/-- A JSON string while running. -/
def runningJson (answer : Option Int) : Option RoomMessage → LobbyOutcome
  | none => a.raise d sender
  | some (.update room data senderName toSelf flags) => a.done d [] [.update room data senderName toSelf flags]
  | some (.message senderName data toSelf) =>
    a.done d ((a.players.filter fun player => toSelf || player.name ≠ senderName).map fun player =>
      ⟨player.actor, .json (.message senderName data toSelf)⟩) []
  | some (.startSession data) => a.startSession d sender answer data
  | some (.ejectPlayer playerName) => a.eject d sender playerName
  | some (.reconfigure newLimit newReserved) => a.reconfigure d sender newLimit newReserved
  | some .leaveRoom => a.done d [] [.disconnected]
  | some _ => a.done d [] []

/-- `Update` while running: every player it is meant for is sent the room as it is now. -/
def update (data senderName : String) (toSelf : Bool) (flags : Int) : LobbyOutcome :=
  match a.makeRoomInfo with
  | some room =>
    a.done d ((a.players.filter fun player => toSelf || player.actor ≠ sender).map fun player =>
      ⟨player.actor, .json (.update room data senderName toSelf flags)⟩) []
  | none => a.done d [] []

/-- `Join` while running. -/
def join (playerName : String) : LobbyOutcome :=
  if a.players.length < toInt (a.playersLimit - a.playersReserved) then
    if ¬a.players.any (fun player => player.name = playerName) then
      let b := { a with players := a.players ++ [PlayerInfo2.mk sender playerName false] }
      match b.makeRoomInfo with
      | some room =>
        b.done (d.updateRoomInfo a.name room) [⟨sender, .room room⟩] [.update room "" playerName false flagJoined]
      | none => b.done d [] []
    else a.done d [⟨sender, .text responseNameExists⟩] []
  else a.done d [⟨sender, .text responseRoomIsFull⟩] []

/-- `Disconnected` while running. -/
def disconnected : LobbyOutcome :=
  match a.players.find? (fun player => player.actor = sender) with
  | some player =>
    let newHost := a.getHost = some player
    let b := { a with players := a.players.erase player }
    -- There is no room description exactly where nobody is left.
    match b.makeRoomInfo with
    | some room =>
      b.done (d.updateRoomInfo a.name room) []
        [.update room "" player.name false (flagLeft ||| (if newHost then flagNewHost else 0) : Nat)]
    | none => b.shutdown.done (d.unregisterLobby a.name) [] []
  | none => a.done d [] []

/-- `Close` while running. -/
def close : LobbyOutcome :=
  a.shutdown.done (d.unregisterLobby a.name) (a.players.map (ejectPlayer · (flagEjected ||| flagClosedByHost))) []

/-- `running`, with the answer of the backend for `StartSession`. -/
def running (answer : Option Int) : LobbyMessage → LobbyOutcome
  | .json raw => a.runningJson d sender answer (raw.map (·.extract))
  | .update _ data senderName toSelf flags => a.update d sender data senderName toSelf flags
  | .join playerName => a.join d sender playerName
  | .disconnected => a.disconnected d sender
  | .close => a.close d
  | .init .. => a.done d [] []

/-- `zombie`: the actor of a room that could not be registered goes with its connection. -/
def zombie : LobbyMessage → LobbyOutcome
  | .disconnected => a.shutdown.done d [] []
  | _ => a.done d [] []

/-- The actor `self` handles a message from `sender`. -/
def receive (self : LobbyRef) (answer : Option Int) (message : LobbyMessage) : LobbyOutcome :=
  match a.behaviour with
  | .initial =>
    match message with
    | .init hostName roomName description playersLimit playersReserved userParam =>
      a.init d sender self hostName roomName description playersLimit playersReserved userParam
    | _ => a.done d [] []
  | .running => a.running d sender answer message
  | .zombie => a.zombie d message

end LobbyActor2

end MultiSlider
