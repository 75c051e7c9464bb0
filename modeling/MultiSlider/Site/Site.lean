import MultiSlider.Lobby.Server
import MultiSlider.Session.Backend

/-! The whole server: the frontend with its rooms, and the backend with its sessions. To start a session a lobby actor
    asks the backend and waits (`Backend ? CreateSession`, `Await.result`). While it waits it handles nothing, and the
    others go on; an answer that comes too late is dropped, but the session has been created. -/

namespace MultiSlider

/-- A `CreateSession` in the mailbox of the backend; `ticket` is the actor that the ask gets its answer by. -/
structure CreateSession where
  sessionName : String
  players : List String
  sender : LobbyRef
  ticket : Nat
deriving DecidableEq, Repr

/-- What a lobby actor waits for. An answer comes with the session that was created for it, if there is one. -/
structure Ask where
  ticket : Nat
  answer : Option (Int × SessionRef)
deriving DecidableEq, Repr

/-- The lobby server and the sessions, with what they have asked and answered each other; `asked` counts the asks. -/
structure Site where
  server : Server
  sessions : Sessions
  requests : List CreateSession
  asks : LobbyRef → Option Ask
  asked : Nat

/-- `received`, `closed` and `handle` are messages of the frontend, and `createSession` is one of the backend; the wait
    of a lobby actor ends with the answer or when `FUTURE_TIMEOUT` is over. -/
inductive SiteAction where
  | received (c : Connection) (raw : Option FrontendMessage)
  | closed (c : Connection)
  | handle (l : LobbyRef)
  | answered (l : LobbyRef)
  | expired (l : LobbyRef)
  | createSession
  | session (a : Sessions.Action)
deriving DecidableEq, Repr

namespace Room

/-- The next message is a `StartSession`, and the actor is running. -/
def startsSession (r : Room) : Bool :=
  match r.actor.behaviour, r.mailbox with
  | .running, ⟨_, .json (some (.startSession _))⟩ :: _ => true
  | _, _ => false

end Room

namespace Site

/-- Neither a room nor a session has been created. -/
def start (ipBackend : String) (portBackend : Int) (clock : Int) : Site where
  server := .start ipBackend portBackend
  sessions := .start clock
  requests := []
  asks := fun _ => none
  asked := 0

variable (σ : Site)

/-- The lobby actor asks for a session and waits. -/
def ask (l : LobbyRef) : Site :=
  let lobby := (σ.server.rooms l).actor
  { σ with
    requests := σ.requests ++ [⟨lobby.name, lobby.players.map (·.name), l, σ.asked⟩]
    asks := Function.update σ.asks l (some ⟨σ.asked, none⟩)
    asked := σ.asked + 1 }

/-- The wait of the lobby actor is over. -/
def resume (l : LobbyRef) (answer : Option Int) : Site :=
  { σ with server := σ.server.step (.handle l answer), asks := Function.update σ.asks l none }

/-- The backend answers the ask; nobody gets the answer if the wait is over. -/
def reply (request : CreateSession) (answer : Int × SessionRef) : LobbyRef → Option Ask :=
  if σ.asks request.sender = some ⟨request.ticket, none⟩ then
    Function.update σ.asks request.sender (some ⟨request.ticket, some answer⟩)
  else σ.asks

/-- One action; an action that is not possible changes nothing. -/
def step (accepts : Int → Bool) (σ : Site) : SiteAction → Site
  | .received c raw => { σ with server := σ.server.step (.received c raw) }
  | .closed c => { σ with server := σ.server.step (.closed c) }
  | .handle l =>
    match σ.asks l with
    | some _ => σ
    | none =>
      if (σ.server.rooms l).startsSession then σ.ask l
      else { σ with server := σ.server.step (.handle l none) }
  | .answered l =>
    match σ.asks l with
    | some ⟨_, some (answer, _)⟩ => σ.resume l (some answer)
    | _ => σ
  | .expired l =>
    match σ.asks l with
    | some ⟨_, none⟩ => σ.resume l none
    | _ => σ
  | .createSession =>
    match σ.requests with
    | request :: rest =>
      let answer := (σ.sessions.backend.createSession request.sessionName σ.sessions.created).2
      { σ with
        sessions := σ.sessions.step accepts (.create request.sessionName request.players)
        requests := rest
        asks := σ.reply request (answer, σ.sessions.created) }
    | [] => σ
  | .session (.create _ _) => σ
  | .session a => { σ with sessions := σ.sessions.step accepts a }

end Site

end MultiSlider
