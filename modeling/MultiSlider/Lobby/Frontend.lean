import MultiSlider.Lobby.Server

/-! The frontend actor (`Frontend.scala`). It counts the clients that it lets in, turns away those that come
    when the server is full, and answers `GetRooms` datagrams. `Entrance` is the actor with its mailbox, in
    front of the client actors and the rooms. -/

namespace MultiSlider

/-! Constants of the frontend, and the version that it greets with. -/

def maxClientsNumber : Int := 1024
def responseSuckIsFull : String := "SERVER_IS_FULL"
def defaultName : String := "MultiSlider"
def versionMajor : Int := 0
def versionMinor : Int := 8
def versionRevision : Int := 1

/-- What the actor can read from a datagram. -/
inductive FrontendDatagram where
  | getRooms
  | greeting (serverName : String) (verMajor verMinor verRevision : Int)
deriving DecidableEq, Repr

/-- What can be in the actor's mailbox; the content of a datagram is `none` if it is no message. -/
inductive FrontendMail where
  | connected (c : Connection)
  | clientDisconnected
  | datagram (raw : Option FrontendDatagram) (remote : Address)
deriving DecidableEq, Repr

/-- What the actor has a connection or the UDP socket do. The socket takes no `Tcp.Write`. -/
inductive FrontendReply where
  | greeting (c : Connection) (serverName : String) (verMajor verMinor verRevision : Int)
  | text (c : Connection) (raw : String)
  | close (c : Connection)
  | rooms (rooms : List RoomInfo) (remote : Address)
deriving DecidableEq, Repr

/-- The actor after a message, the connection that it has created and registered a client actor for, and its
    replies. -/
structure FrontendOutcome where
  clientsCounter : Int
  handler : Option Connection
  replies : List FrontendReply

namespace Frontend

/-- What one that is let in is sent. -/
def welcome (c : Connection) : List FrontendReply :=
  [.greeting c defaultName versionMajor versionMinor versionRevision]

/-- What one that is turned away is sent. -/
def refusal (c : Connection) : List FrontendReply := [.text c responseSuckIsFull, .close c]

/-- `Tcp.Connected`: the client is greeted and counted, or told that the server is full. -/
def connected (clientsCounter : Int) (c : Connection) : FrontendOutcome :=
  if clientsCounter < maxClientsNumber then ⟨clientsCounter + 1, some c, welcome c⟩
  else ⟨clientsCounter, none, refusal c⟩

/-- `receive`; what it cannot read of a datagram it does not answer. -/
def receive (clientsCounter : Int) (d : Depot) : FrontendMail → FrontendOutcome
  | .connected c => connected clientsCounter c
  | .clientDisconnected => ⟨max 0 (clientsCounter - 1), none, []⟩
  | .datagram (some .getRooms) remote => ⟨clientsCounter, none, [.rooms d.getRooms remote]⟩
  | .datagram _ _ => ⟨clientsCounter, none, []⟩

end Frontend

/-- The connection that the message tells of. -/
def FrontendMail.connection : FrontendMail → Option Connection
  | .connected c => some c
  | _ => none

/-- The connection that a reply is for. -/
def FrontendReply.connection : FrontendReply → Option Connection
  | .greeting c _ _ _ _ => some c
  | .text c _ => some c
  | .close c => some c
  | .rooms _ _ => none

/-- The server behind its frontend actor. `connections` are those that TCP has told the actor of, and
    `handlers` those that a client actor is registered for; only these are read from. -/
structure Entrance where
  server : Server
  clientsCounter : Int
  mailbox : List FrontendMail
  connections : List Connection
  handlers : List Connection
  replies : List FrontendReply

/-- Something comes in from the network, the frontend actor handles a message, or a lobby actor does. -/
inductive EntranceAction where
  | connect (c : Connection)
  | datagram (raw : Option FrontendDatagram) (remote : Address)
  | turn
  | received (c : Connection) (raw : Option FrontendMessage)
  | closed (c : Connection)
  | handle (l : LobbyRef) (answer : Option Int)

namespace Frontend

theorem welcome_connection {c : Connection} : ∀ reply ∈ welcome c, reply.connection = some c :=
  List.forall_mem_singleton.mpr rfl

theorem refusal_connection {c : Connection} : ∀ reply ∈ refusal c, reply.connection = some c :=
  List.forall_mem_cons.mpr ⟨rfl, List.forall_mem_singleton.mpr rfl⟩

/-- A datagram lets nobody in, and is answered on no connection. -/
theorem receive_datagram (clientsCounter : Int) (d : Depot) (raw : Option FrontendDatagram) (remote : Address) :
    ∃ replies, receive clientsCounter d (.datagram raw remote) = ⟨clientsCounter, none, replies⟩ ∧
      ∀ reply ∈ replies, reply.connection = none := by
  cases raw with
  | none => exact ⟨_, rfl, List.forall_mem_nil _⟩
  | some datagram =>
    cases datagram with
    | getRooms => exact ⟨_, rfl, List.forall_mem_singleton.mpr rfl⟩
    | greeting => exact ⟨_, rfl, List.forall_mem_nil _⟩

end Frontend

namespace Entrance

/-- The server after its start; nobody has connected. -/
def start (ipBackend : String) (portBackend : Int) : Entrance where
  server := .start ipBackend portBackend
  clientsCounter := 0
  mailbox := []
  connections := []
  handlers := []
  replies := []

/-- The frontend actor handles the first message of its mailbox. -/
def turn (σ : Entrance) : Entrance :=
  match σ.mailbox with
  | mail :: rest =>
    let o := Frontend.receive σ.clientsCounter σ.server.depot mail
    { σ with
      clientsCounter := o.clientsCounter
      mailbox := rest
      handlers := σ.handlers ++ o.handler.toList
      replies := σ.replies ++ o.replies }
  | [] => σ

/-- A client actor that runs tells the frontend actor when its connection has closed. -/
def closed (σ : Entrance) (c : Connection) : Entrance :=
  if c ∈ σ.handlers ∧ (σ.server.clients c).stopped = false then
    { σ with server := σ.server.step (.closed c), mailbox := σ.mailbox ++ [.clientDisconnected] }
  else σ

/-- TCP tells of each connection once. -/
def connect (σ : Entrance) (c : Connection) : Entrance :=
  if c ∈ σ.connections then σ
  else { σ with connections := σ.connections ++ [c], mailbox := σ.mailbox ++ [.connected c] }

/-- A message for a client actor comes from a connection that one is registered for. -/
def received (σ : Entrance) (c : Connection) (raw : Option FrontendMessage) : Entrance :=
  if c ∈ σ.handlers then { σ with server := σ.server.step (.received c raw) } else σ

/-- One action. -/
def step (σ : Entrance) : EntranceAction → Entrance
  | .connect c => σ.connect c
  | .datagram raw remote => { σ with mailbox := σ.mailbox ++ [.datagram raw remote] }
  | .turn => σ.turn
  | .received c raw => σ.received c raw
  | .closed c => σ.closed c
  | .handle l answer => { σ with server := σ.server.step (.handle l answer) }

/-- The connections of which the actor has not handled the message yet. -/
def waiting (σ : Entrance) : List Connection := σ.mailbox.filterMap FrontendMail.connection

/-- The connections that have a client actor which has not stopped. -/
def serving (σ : Entrance) : List Connection := σ.handlers.filter fun c => (σ.server.clients c).stopped = false

/-- The clients that have gone, where the actor does not know it yet. -/
def leaving (σ : Entrance) : Nat := σ.mailbox.count .clientDisconnected

/-- What the actor has sent to a connection. -/
def repliesTo (σ : Entrance) (c : Connection) : List FrontendReply :=
  σ.replies.filter fun reply => reply.connection = some c

end Entrance

end MultiSlider
