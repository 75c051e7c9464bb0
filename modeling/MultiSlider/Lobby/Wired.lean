import MultiSlider.Lobby.Service

/-! The server and its clients, with the connections in both directions: what the server writes on a connection
    is read there in order, whole messages at a time. A call that waits for an answer takes the next message for
    it; all others are for `receive`. -/

namespace MultiSlider

/-- The room description that `deserialize` makes of a whole message. -/
def TcpPayload.asRoom : TcpPayload → Option RoomInfo
  | .room info => some info
  | _ => none

/-- The messages of a class that `Lobby::receive` looks for. -/
def TcpPayload.known : TcpPayload → Bool
  | .json (.update ..) | .json (.sessionStarted ..) | .json (.ejected _) | .json (.message ..)
  | .json (.reconfigureSucc _) | .json .reconfigureSuck => true
  | _ => false

/-- One round of the loop in `Lobby::receive`; `none` if it throws a `ProtocolError`. An assertion that fails on a
    message of a known class is not told apart from a round that goes through. -/
def Lobby.dispatch (s : Lobby) (payload : TcpPayload) : Option Lobby :=
  match payload with
  | .json message => if payload.known then some (s.receive message) else none
  | _ => none

/-- What the server has written on a connection. -/
def Server.outbox (σ : Server) (c : Connection) : List TcpPayload :=
  (σ.sent.filter (·.receiver = c)).map (·.payload)

/-- The service, and how many of the messages on its connection each client has taken. -/
structure Wired extends Service where
  taken : Connection → Nat

/-- A call takes its answer or gives up waiting, `receive` takes a message, or the server takes a step. -/
inductive WiredAction where
  | call (c : Connection) (k : LobbyCall)
  | answer (c : Connection)
  | timeout (c : Connection)
  | receive (c : Connection)
  | deliver (c : Connection)
  | closed (c : Connection)
  | handle (l : LobbyRef) (answer : Option Int)
deriving DecidableEq, Repr

namespace Wired

/-- Nobody has taken a message. -/
def start (ipBackend : String) (portBackend : Int) : Wired := ⟨.start ipBackend portBackend, fun _ => 0⟩

/-- The messages on its connection that the client has not taken. -/
def pending (w : Wired) (c : Connection) : List TcpPayload := (w.server.outbox c).drop (w.taken c)

/-- The client takes a message and goes on as `s`. -/
def take (w : Wired) (c : Connection) (s : Lobby) : Wired :=
  { w with lobbies := Function.update w.lobbies c s, taken := Function.update w.taken c (w.taken c + 1) }

/-- One action. -/
def step (w : Wired) : WiredAction → Wired
  | .call c k => { w with toService := w.toService.step (.call c k) }
  | .answer c =>
    match (w.lobbies c).awaiting, w.pending c with
    | some _, payload :: _ => w.take c ((w.lobbies c).answered payload.asRoom)
    | _, _ => w
  | .timeout c => if w.pending c = [] then { w with toService := w.toService.step (.answered c none) } else w
  | .receive c =>
    match (w.lobbies c).isJoined && (w.lobbies c).awaiting.isNone, w.pending c with
    | true, payload :: _ => w.take c (((w.lobbies c).dispatch payload).getD (w.lobbies c))
    | _, _ => w
  | .deliver c => { w with toService := w.toService.step (.deliver c) }
  | .closed c => { w with toService := w.toService.step (.closed c) }
  | .handle l answer => { w with toService := w.toService.step (.handle l answer) }

variable {w : Wired} {c : Connection}

/-- What the action is for the server. -/
def serverAction (w : Wired) : WiredAction → Option ServerAction
  | .deliver c => (w.wires c).head?.map fun message => .received c (some message)
  | .closed c => some (.closed c)
  | .handle l answer => some (.handle l answer)
  | _ => none

/-- The server takes one of its own steps, or none. -/
theorem step_server (w : Wired) (action : WiredAction) : (w.step action).server = match w.serverAction action with
    | some b => w.server.step b
    | none => w.server := by
  cases action with
  | call c k => exact w.toService.step_server (.call c k)
  | deliver c => exact w.toService.step_server (.deliver c)
  | closed c => rfl
  | handle l answer => rfl
  | timeout c =>
    simp only [step]
    split <;> rfl
  | answer c =>
    simp only [step]
    split <;> rfl
  | receive c =>
    simp only [step]
    split <;> rfl

end Wired

end MultiSlider
