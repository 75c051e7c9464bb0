import MultiSlider.Lobby.LobbyActor2

/-! The actor of one TCP connection (`Client.scala`). It forwards what comes in to the lobby actors and
    remembers one of them, its handler. -/

namespace MultiSlider

/-- `m_handler`, the lobby actor created or joined last, and whether the actor itself has ended. -/
structure Client where
  handler : Option LobbyRef
  stopped : Bool
deriving DecidableEq, Repr

/-- What the actor does with a message: the actor after it, the number of lobby actors after it, what it
    forwards to a lobby actor, and what it writes on the connection. -/
structure ClientOutcome where
  client : Client
  created : LobbyRef
  forward : Option (LobbyRef × LobbyMessage)
  writes : List TcpPayload

namespace Client

/-- A new actor. -/
def create : Client := ⟨none, false⟩

variable (c : Client) (d : Depot)

/-- A message from the connection; the string received is `none` if it is no message. A lobby actor that is
    created gets the reference `created`. -/
def frontend (created : LobbyRef) : Option FrontendMessage → ClientOutcome
  | some (.createRoom playerName roomName description playersLimit playersReserved userParam) =>
    ⟨{ c with handler := some created }, created + 1,
      some (created, .init playerName roomName description playersLimit playersReserved userParam), []⟩
  | some (.joinRoom playerName roomName) =>
    match d.get roomName with
    | some lobby => ⟨{ c with handler := some lobby.handler }, created, some (lobby.handler, .join playerName), []⟩
    | none => ⟨c, created, none, [.text responseSuck]⟩
  | some (.envelop roomName messageData) =>
    match d.get roomName with
    | some lobby => ⟨c, created, some (lobby.handler, .json messageData), []⟩
    | none => ⟨c, created, none, []⟩
  | some .closeRoom =>
    match c.handler with
    | some handler => ⟨{ c with handler := none }, created, some (handler, .close), []⟩
    | none => ⟨c, created, none, []⟩
  | none => ⟨c, created, none, [.text responseSuck]⟩

/-- `Tcp.Received`. -/
def receive (created : LobbyRef) (raw : Option FrontendMessage) : ClientOutcome :=
  if c.stopped then ⟨c, created, none, []⟩ else c.frontend d created (raw.map (·.extract))

/-- `PeerClosed` and `ErrorClosed`. -/
def shutdown (created : LobbyRef) : ClientOutcome :=
  if c.stopped then ⟨c, created, none, []⟩
  else ⟨{ c with stopped := true }, created, c.handler.map fun handler => (handler, .disconnected), []⟩

variable {c : Client} {d : Depot} {created : LobbyRef} {raw : Option FrontendMessage}

/-- A stopped actor stays as it is, and a running one is stopped by nothing that it receives. -/
theorem receive_stopped : (c.receive d created raw).client.stopped = c.stopped := by
  unfold receive
  split
  · rfl
  · unfold frontend
    split
    · rfl
    · split <;> rfl
    · split <;> rfl
    · split <;> rfl
    · rfl

/-- What a running actor does with what comes in. -/
inductive Handled (c : Client) (d : Depot) (created : LobbyRef) : Option FrontendMessage → ClientOutcome → Prop where
  | creates {playerName roomName description : String} {playersLimit playersReserved : Int} {userParam : String} :
    Handled c d created (some (.createRoom playerName roomName description playersLimit playersReserved userParam))
      ⟨{ c with handler := some created }, created + 1, some (created,
        .init playerName roomName description (toInt playersLimit) (toInt playersReserved) userParam), []⟩
  | joins {playerName roomName : String} {lobby : LobbyStats} (found : d.get roomName = some lobby) :
    Handled c d created (some (.joinRoom playerName roomName))
      ⟨{ c with handler := some lobby.handler }, created, some (lobby.handler, .join playerName), []⟩
  | missing {playerName roomName : String} (absent : d.get roomName = none) :
    Handled c d created (some (.joinRoom playerName roomName)) ⟨c, created, none, [.text responseSuck]⟩
  | passes {roomName : String} {data : Option RoomMessage} {lobby : LobbyStats} (found : d.get roomName = some lobby) :
    Handled c d created (some (.envelop roomName data)) ⟨c, created, some (lobby.handler, .json data), []⟩
  | drops {roomName : String} {data : Option RoomMessage} (absent : d.get roomName = none) :
    Handled c d created (some (.envelop roomName data)) ⟨c, created, none, []⟩
  | closes {handler : LobbyRef} (own : c.handler = some handler) :
    Handled c d created (some .closeRoom) ⟨{ c with handler := none }, created, some (handler, .close), []⟩
  | idle (own : c.handler = none) : Handled c d created (some .closeRoom) ⟨c, created, none, []⟩
  | unreadable : Handled c d created none ⟨c, created, none, [.text responseSuck]⟩

theorem receive_of_stopped (h : c.stopped = true) : c.receive d created raw = ⟨c, created, none, []⟩ := if_pos h

variable (d created) in
/-- Whatever a running actor does is one of the cases. -/
theorem receive_handled (h : c.stopped = false) (raw : Option FrontendMessage) :
    Handled c d created raw (c.receive d created raw) := by
  have hreceive : c.receive d created raw = c.frontend d created (raw.map (·.extract)) := by
    unfold receive
    rw [h]
    rfl
  rw [hreceive]
  cases raw with
  | none => exact .unreadable
  | some message =>
    cases message with
    | createRoom => exact .creates
    | joinRoom playerName roomName =>
      simp only [Option.map_some, FrontendMessage.extract, frontend]
      split
      · rename_i lobby hget
        exact .joins hget
      · rename_i hget
        exact .missing hget
    | envelop roomName data =>
      simp only [Option.map_some, FrontendMessage.extract, frontend]
      split
      · rename_i lobby hget
        exact .passes hget
      · rename_i hget
        exact .drops hget
    | closeRoom =>
      simp only [Option.map_some, FrontendMessage.extract, frontend]
      split
      · rename_i handler hown
        exact .closes hown
      · rename_i hown
        exact .idle hown

end Client

end MultiSlider
