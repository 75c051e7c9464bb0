import MultiSlider.Session.Message

/-! The messages of the lobby (`FrontendMessage.scala`) and what travels on a TCP connection. Numbers of a
    message received are JSON numbers; `extract` reads them into `Int` fields. -/

namespace MultiSlider

/-- A TCP connection. Its actor is the sender of every message that came in on it. -/
abbrev Connection := Nat

/-- The reference of a lobby actor. -/
abbrev LobbyRef := Nat

/-! Plain answers. -/

def responseRoomIsFull : String := "FULL"
def responseNameExists : String := "NAME"
def responseRoomExists : String := "ROOM"

/-! Flags of the `Update` and `Ejected` messages. -/

def flagEjected : Nat := 1
def flagJoined : Nat := 1 <<< 1
def flagLeft : Nat := 1 <<< 2
def flagNewHost : Nat := 1 <<< 3
def flagClosedByHost : Nat := 1 <<< 4

/-- Room descriptor for clients; `players` is `none` where the list is left out. -/
structure RoomInfo where
  name : String
  host : String
  description : String
  playersLimit : Int
  playersReserved : Int
  playersNumber : Int
  players : Option (List String)
  userParam : String
deriving DecidableEq, Repr

/-- `noPlayers`: the description without its list. -/
def RoomInfo.noPlayers (info : RoomInfo) : RoomInfo := { info with players := none }

/-- The messages that `LobbyActor2` reads and writes. -/
inductive RoomMessage where
  | closeRoom
  | joinRoom (playerName roomName : String)
  | leaveRoom
  | ejectPlayer (playerName : String)
  | startSession (data : String)
  | sessionStarted (ip : String) (port : Int) (name : String) (id : Int) (data : String)
  | update (room : RoomInfo) (data sender : String) (toSelf : Bool) (flags : Int)
  | ejected (flags : Int)
  | message (sender data : String) (toSelf : Bool)
  | reconfigure (playersLimit playersReserved : Int)
  | reconfigureSuck
  | reconfigureSucc (room : RoomInfo)
deriving DecidableEq, Repr

/-- The numbers that the actor goes on to use, in the width of their fields. -/
def RoomMessage.extract : RoomMessage → RoomMessage
  | .update room data sender toSelf flags => .update room data sender toSelf (toInt flags)
  | .reconfigure playersLimit playersReserved => .reconfigure (toInt playersLimit) (toInt playersReserved)
  | m => m

/-- The messages that the `Client` actor reads; the data of an `Envelop` is `none` if it is no message. -/
inductive FrontendMessage where
  | createRoom (playerName roomName description : String) (playersLimit playersReserved : Int) (userParam : String)
  | closeRoom
  | joinRoom (playerName roomName : String)
  | envelop (roomName : String) (data : Option RoomMessage)
deriving DecidableEq, Repr

/-- The limits in the width of their fields. -/
def FrontendMessage.extract : FrontendMessage → FrontendMessage
  | .createRoom playerName roomName description playersLimit playersReserved userParam =>
    .createRoom playerName roomName description (toInt playersLimit) (toInt playersReserved) userParam
  | m => m

/-- What the server writes on a connection: a room description, a message, or a plain answer. -/
inductive TcpPayload where
  | room (info : RoomInfo)
  | json (message : RoomMessage)
  | text (raw : String)
deriving DecidableEq, Repr

/-- The room description that a payload carries. -/
def TcpPayload.roomInfo : TcpPayload → Option RoomInfo
  | .room info => some info
  | .json (.update info _ _ _ _) => some info
  | .json (.reconfigureSucc info) => some info
  | _ => none

/-- A `Tcp.Write`. -/
structure Write where
  receiver : Connection
  payload : TcpPayload
deriving DecidableEq, Repr

end MultiSlider
