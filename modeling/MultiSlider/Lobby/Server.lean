import Mathlib.Logic.Function.Basic
import MultiSlider.Lib.Machine
import MultiSlider.Lobby.Client
import MultiSlider.Lobby.Room

/-! The frontend as a whole: the registry, a client actor for every connection, the rooms, and what has been
    written on the connections. One action is one message handled by one actor. -/

namespace MultiSlider

/-- The rooms from `created` on are those of actors that are not created yet. -/
structure Server where
  depot : Depot
  clients : Connection → Client
  rooms : LobbyRef → Room
  created : LobbyRef
  sent : List Write

/-- A client actor gets a message or its connection closes, or a lobby actor handles a message; `answer` is what the
    backend answers, if it has to be asked. -/
inductive ServerAction where
  | received (c : Connection) (raw : Option FrontendMessage)
  | closed (c : Connection)
  | handle (l : LobbyRef) (answer : Option Int)
deriving DecidableEq, Repr

namespace Server

/-- The server after its start, with the address of its backend. -/
def start (ipBackend : String) (portBackend : Int) : Server where
  depot := .create ipBackend portBackend
  clients := fun _ => .create
  rooms := fun _ => .create
  created := 0
  sent := []

variable (σ : Server)

/-- The rooms after something is forwarded to a lobby actor. -/
def forward (sender : Connection) : Option (LobbyRef × LobbyMessage) → LobbyRef → Room
  | some (l, message) => Function.update σ.rooms l ((σ.rooms l).post ⟨sender, message⟩)
  | none => σ.rooms

/-- The client actor of `c` has handled a message. -/
def turn (c : Connection) (o : ClientOutcome) : Server :=
  { σ with
    clients := Function.update σ.clients c o.client
    rooms := σ.forward c o.forward
    created := o.created
    sent := σ.sent ++ o.writes.map fun payload => ⟨c, payload⟩ }

/-- The lobby actor `l` handles a message. -/
def handle (l : LobbyRef) (answer : Option Int) : Server :=
  let (room, depot, writes) := (σ.rooms l).handle σ.depot l answer
  { σ with depot, rooms := Function.update σ.rooms l room, sent := σ.sent ++ writes }

/-- One action. -/
def step (σ : Server) : ServerAction → Server
  | .received c raw => σ.turn c ((σ.clients c).receive σ.depot σ.created raw)
  | .closed c => σ.turn c ((σ.clients c).shutdown σ.created)
  | .handle l answer => σ.handle l answer

variable {σ : Server} {c : Connection} {o : ClientOutcome} {l l' : LobbyRef} {answer : Option Int}

/-! ### What a turn of a client changes -/

/-- A room is as before, or it is sent what the client forwards. -/
theorem turn_room : (σ.turn c o).rooms l = σ.rooms l ∨
    ∃ message, o.forward = some (l, message) ∧ (σ.turn c o).rooms l = (σ.rooms l).post ⟨c, message⟩ := by
  simp only [turn]
  cases o.forward with
  | none => exact Or.inl rfl
  | some f =>
    obtain ⟨l', message⟩ := f
    simp only [forward]
    by_cases hl : l = l'
    · subst hl
      exact Or.inr ⟨message, rfl, Function.update_self l _ _⟩
    · exact Or.inl (Function.update_of_ne hl _ _)

theorem turn_actor : ((σ.turn c o).rooms l).actor = (σ.rooms l).actor := by
  rcases turn_room (σ := σ) (c := c) (o := o) (l := l) with hroom | ⟨message, -, hroom⟩
  · rw [hroom]
  · rw [hroom, Room.post_actor]

theorem turn_mailbox : ∃ more, ((σ.turn c o).rooms l).mailbox = (σ.rooms l).mailbox ++ more := by
  rcases turn_room (σ := σ) (c := c) (o := o) (l := l) with hroom | ⟨message, -, hroom⟩
  · exact ⟨[], by rw [hroom, List.append_nil]⟩
  · rw [hroom]
    rcases Room.post_mailbox (σ.rooms l) ⟨c, message⟩ with hmailbox | hmailbox
    · exact ⟨[], by rw [hmailbox, List.append_nil]⟩
    · exact ⟨_, hmailbox⟩

theorem turn_open : ((σ.turn c o).rooms l).Open ↔ (σ.rooms l).Open := by
  unfold Room.Open
  rw [turn_actor]

/-! ### What a message handled by a lobby actor changes -/

theorem handle_other (h : l' ≠ l) : (σ.handle l answer).rooms l' = σ.rooms l' := Function.update_of_ne h _ _

/-- A property of each room: of the room whose actor handles a message, and of the others as they were. -/
theorem forall_handle {P : LobbyRef → Room → Prop} (hself : P l ((σ.handle l answer).rooms l))
    (hother : ∀ l' ≠ l, P l' (σ.rooms l')) (l' : LobbyRef) : P l' ((σ.handle l answer).rooms l') := by
  by_cases hl : l' = l
  · rw [hl]
    exact hself
  · rw [handle_other hl]
    exact hother l' hl

theorem handle_idle (h : (σ.rooms l).mailbox = []) : σ.handle l answer = σ := by
  have hidle : (σ.rooms l).handle σ.depot l answer = (σ.rooms l, σ.depot, []) := by
    unfold Room.handle
    rw [h]
  unfold handle
  rw [hidle]
  simp

/-- The room after its actor has handled the first message of its mailbox. -/
theorem handle_room {mail : Mail} {rest : List Mail} (h : (σ.rooms l).mailbox = mail :: rest) (answer : Option Int) :
    let o := (σ.rooms l).actor.receive σ.depot mail.sender l answer mail.message
    (σ.handle l answer).rooms l =
      ⟨o.lobby, if o.lobby.stopped then [] else rest ++ o.forwards.map fun message => ⟨mail.sender, message⟩⟩ := by
  unfold handle Room.handle
  rw [h]
  exact Function.update_self l _ _

theorem handle_depot {mail : Mail} {rest : List Mail} (h : (σ.rooms l).mailbox = mail :: rest) (answer : Option Int) :
    (σ.handle l answer).depot = ((σ.rooms l).actor.receive σ.depot mail.sender l answer mail.message).depot := by
  unfold handle Room.handle
  rw [h]

theorem handle_sent {mail : Mail} {rest : List Mail} (h : (σ.rooms l).mailbox = mail :: rest) (answer : Option Int) :
    (σ.handle l answer).sent =
      σ.sent ++ ((σ.rooms l).actor.receive σ.depot mail.sender l answer mail.message).writes := by
  unfold handle Room.handle
  rw [h]

end Server

end MultiSlider
