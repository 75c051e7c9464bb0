import MultiSlider.Lobby.Lobby
import MultiSlider.Lobby.Server

/-! The server with a `Lobby` at the other end of every connection. A connection carries whole messages in
    order; what the server answers, and what a `Lobby` makes of it, is left open: any answer may come. -/

namespace MultiSlider

/-- The server, the `Lobby` of each connection, and what this one has sent and the server has not read. -/
structure Service where
  server : Server
  lobbies : Connection → Lobby
  wires : Connection → List FrontendMessage

/-- A client calls a method, has its call answered or handles a message, or the server takes a step. -/
inductive ServiceAction where
  | call (c : Connection) (k : LobbyCall)
  | answered (c : Connection) (response : Option RoomInfo)
  | receive (c : Connection) (message : RoomMessage)
  | deliver (c : Connection)
  | closed (c : Connection)
  | handle (l : LobbyRef) (answer : Option Int)
deriving DecidableEq, Repr

namespace Service

/-- Nobody is in a room, and nothing has been sent. -/
def start (ipBackend : String) (portBackend : Int) : Service where
  server := .start ipBackend portBackend
  lobbies := fun _ => .create
  wires := fun _ => []

variable (w : Service)

/-- One action. -/
def step (w : Service) : ServiceAction → Service
  | .call c k =>
    match (w.lobbies c).call k with
    | some (s, message) =>
      { w with lobbies := Function.update w.lobbies c s, wires := Function.update w.wires c (w.wires c ++ [message]) }
    | none => w
  | .answered c response => { w with lobbies := Function.update w.lobbies c ((w.lobbies c).answered response) }
  | .receive c message => { w with lobbies := Function.update w.lobbies c ((w.lobbies c).receive message) }
  | .deliver c =>
    match w.wires c with
    | message :: rest =>
      { w with server := w.server.step (.received c (some message)), wires := Function.update w.wires c rest }
    | [] => w
  | .closed c => { w with server := w.server.step (.closed c), wires := Function.update w.wires c [] }
  | .handle l answer => { w with server := w.server.step (.handle l answer) }

/-- What an action is for the server. -/
def serverAction : ServiceAction → Option ServerAction
  | .deliver c => (w.wires c).head?.map fun message => .received c (some message)
  | .closed c => some (.closed c)
  | .handle l answer => some (.handle l answer)
  | _ => none

/-- The server takes one of its own steps, or none. -/
theorem step_server (action : ServiceAction) : (w.step action).server = match w.serverAction action with
    | some b => w.server.step b
    | none => w.server := by
  cases action with
  | call c k =>
    simp only [step, serverAction]
    split <;> rfl
  | deliver c =>
    simp only [step, serverAction]
    cases w.wires c <;> rfl
  | _ => rfl

/-- What every step of a server keeps, if it is allowed, holds of the server all along. -/
theorem always_server {ok : Server → ServerAction → Prop} {P : Server → Prop} {w : Service}
    {as : List ServiceAction} (keep : ∀ σ b, P σ → ok σ b → P (σ.step b)) (hw : P w.server)
    (h : Machine.Along step (fun w action => ∀ b ∈ w.serverAction action, ok w.server b) w as) :
    Machine.Always step (fun w => P w.server) w as := by
  refine Machine.always_of_along (fun w action hP hok => ?_) hw h
  rw [step_server]
  cases haction : w.serverAction action with
  | none => exact hP
  | some b => exact keep w.server b hP (hok b haction)

end Service

end MultiSlider
