import MultiSlider.Lobby.Accounts
import MultiSlider.Site.Crews
import MultiSlider.Site.Site

/-! Starting a session. Each session that the players of a room are told of has been created for this room, and it is
    told to all of them, once; a session that has been created too late is told to nobody. -/

namespace MultiSlider

/-- The players are told that their session is there. -/
def Write.starts (w : Write) : Bool :=
  match w.payload with
  | .json (.sessionStarted ..) => true
  | _ => false

/-- The message asks for a session. -/
def LobbyMessage.startsSession : LobbyMessage → Bool
  | .json (some (.startSession _)) => true
  | _ => false

/-- A session that the players of a room are told of. -/
structure Launch where
  players : List PlayerInfo2
  name : String
  data : String
  sessionId : Int
  handler : SessionRef

/-- What the players are told. -/
def Launch.writes (ipBackend : String) (portBackend : Int) (launch : Launch) : List Write :=
  launch.players.map fun player =>
    ⟨player.actor, .json (.sessionStarted ipBackend portBackend launch.name launch.sessionId launch.data)⟩

namespace LobbyActor2

/-- What the players of a room are told of the answer of the backend. -/
def told (a : LobbyActor2) (d : Depot) (data : String) : Option Int → List Write
  | some sessionId =>
    if sessionId ≥ 0 then a.players.map fun player =>
      ⟨player.actor, .json (.sessionStarted d.ipBackend d.portBackend a.name sessionId data)⟩
    else []
  | none => []

variable {a : LobbyActor2} {d : Depot} {sender : Connection} {self : LobbyRef} {answer : Option Int}

theorem silent_of_forall {α : Type} {xs : List α} {f : α → Write} (h : ∀ x, (f x).starts = false) :
    (xs.map f).filter Write.starts = [] := by
  rw [List.filter_eq_nil_iff]
  intro w hw
  obtain ⟨x, -, rfl⟩ := List.mem_map.mp hw
  rw [h x]
  exact Bool.false_ne_true

/-- Only `StartSession` has the players told of a session. -/
theorem runningJson_silent {raw : Option RoomMessage} (h : (LobbyMessage.json raw).startsSession = false) :
    (a.runningJson d sender answer raw).writes.filter Write.starts = [] := by
  cases raw with
  | none => rfl
  | some message =>
    cases message with
    | startSession => cases h
    | message senderName data toSelf => exact silent_of_forall fun _ => rfl
    | ejectPlayer playerName =>
      simp only [runningJson, eject]
      split
      · split
        · split
          · split <;> rfl
          · rfl
        · rfl
      · rfl
    | reconfigure newLimit newReserved =>
      simp only [runningJson, reconfigure]
      split
      · split
        · split
          · rfl
          · split
            · exact silent_of_forall fun _ => rfl
            · rfl
        · rfl
      · rfl
    | _ => rfl

theorem receive_silent {m : LobbyMessage} (h : a.behaviour = .running → m.startsSession = false) :
    (a.receive d sender self answer m).writes.filter Write.starts = [] := by
  unfold receive
  cases hbehaviour : a.behaviour with
  | initial =>
    cases m with
    | init =>
      dsimp only
      unfold init
      dsimp only
      split
      · split <;> rfl
      · rfl
    | _ => rfl
  | running =>
    have hquiet := h hbehaviour
    cases m with
    | init => rfl
    | join playerName =>
      simp only [running, join]
      split
      · split
        · split <;> rfl
        · rfl
      · rfl
    | close => exact silent_of_forall fun _ => rfl
    | disconnected =>
      simp only [running, disconnected]
      split
      · split <;> rfl
      · rfl
    | update room data senderName toSelf flags =>
      simp only [running, update]
      split
      · exact silent_of_forall fun _ => rfl
      · rfl
    | json raw =>
      refine runningJson_silent ?_
      cases raw with
      | none => rfl
      | some message => cases message <;> first | rfl | exact hquiet
  | zombie => cases m <;> rfl

variable (d sender self answer) in
/-- A `StartSession` in a running room changes nothing in it. -/
theorem receive_startSession (hrunning : a.behaviour = .running) (data : String) :
    let o := a.receive d sender self answer (.json (some (.startSession data)))
    o.lobby = a ∧ o.depot = d ∧ o.forwards = [] ∧ o.writes.filter Write.starts = a.told d data answer := by
  have heq : a.receive d sender self answer (.json (some (.startSession data))) =
      a.startSession d sender answer data := by
    unfold receive
    rw [hrunning]
    rfl
  dsimp only
  rw [heq]
  unfold startSession told
  cases answer with
  | none => exact ⟨rfl, rfl, rfl, rfl⟩
  | some sessionId =>
    dsimp only
    split
    · refine ⟨rfl, rfl, rfl, ?_⟩
      rw [done, List.filter_eq_self]
      intro w hw
      obtain ⟨player, -, rfl⟩ := List.mem_map.mp hw
      rfl
    · exact ⟨rfl, rfl, rfl, rfl⟩

end LobbyActor2

namespace Room

variable {r : Room} {mail : Mail} {rest : List Mail}

theorem startsSession_iff : r.startsSession = true ↔ r.actor.behaviour = .running ∧
    ∃ sender data rest, r.mailbox = ⟨sender, .json (some (.startSession data))⟩ :: rest := by
  unfold startsSession
  constructor
  · intro h
    split at h
    · rename_i hrunning hmailbox
      exact ⟨hrunning, _, _, _, hmailbox⟩
    · cases h
  · rintro ⟨hrunning, sender, data, rest, hmailbox⟩
    rw [hrunning, hmailbox]

/-- More mail leaves the next message as it is. -/
theorem startsSession_append {r' : Room} (h : r.startsSession = true) (hactor : r'.actor = r.actor)
    (hmailbox : ∃ more, r'.mailbox = r.mailbox ++ more) : r'.startsSession = true := by
  obtain ⟨hrunning, sender, data, rest, hfirst⟩ := startsSession_iff.mp h
  obtain ⟨more, hmore⟩ := hmailbox
  rw [hfirst] at hmore
  exact startsSession_iff.mpr ⟨hactor ▸ hrunning, sender, data, rest ++ more, hmore⟩

end Room

/-! ### The frontend -/

namespace Server

variable {σ : Server} {c : Connection} {o : ClientOutcome} {l : LobbyRef} {answer : Option Int}

/-- The address of the backend stays. -/
theorem receive_address (a : LobbyActor2) (d : Depot) (sender : Connection) (self : LobbyRef) (answer : Option Int)
    (m : LobbyMessage) : let o := a.receive d sender self answer m
    o.depot.ipBackend = d.ipBackend ∧ o.depot.portBackend = d.portBackend := by
  dsimp only
  rcases LobbyActor2.receive_depot a d sender self answer m with heq | ⟨room, heq⟩ | heq | ⟨room, heq⟩
  · rw [heq]
    exact ⟨rfl, rfl⟩
  · rw [heq]
    unfold Depot.updateRoomInfo
    split <;> exact ⟨rfl, rfl⟩
  · rw [heq]
    exact ⟨rfl, rfl⟩
  · rw [heq]
    unfold Depot.registerLobby
    split
    · exact ⟨rfl, rfl⟩
    · split <;> exact ⟨rfl, rfl⟩

theorem handle_address : (σ.handle l answer).depot.ipBackend = σ.depot.ipBackend ∧
    (σ.handle l answer).depot.portBackend = σ.depot.portBackend := by
  cases hmailbox : (σ.rooms l).mailbox with
  | nil =>
    rw [handle_idle hmailbox]
    exact ⟨rfl, rfl⟩
  | cons mail rest =>
    rw [handle_depot hmailbox]
    exact receive_address ..

/-- What a client writes by itself tells of no session. -/
theorem turn_silent (h : ∀ payload ∈ o.writes, ∃ raw, payload = .text raw) :
    (σ.turn c o).sent.filter Write.starts = σ.sent.filter Write.starts := by
  have hnothing : (o.writes.map fun payload => (⟨c, payload⟩ : Write)).filter Write.starts = [] := by
    rw [List.filter_eq_nil_iff]
    intro w hw
    obtain ⟨payload, hpayload, rfl⟩ := List.mem_map.mp hw
    obtain ⟨raw, rfl⟩ := h payload hpayload
    exact Bool.false_ne_true
  simp only [Server.turn, List.filter_append, hnothing, List.append_nil]

theorem handle_silent (h : (σ.rooms l).startsSession = false) :
    (σ.handle l answer).sent.filter Write.starts = σ.sent.filter Write.starts := by
  cases hmailbox : (σ.rooms l).mailbox with
  | nil => rw [handle_idle hmailbox]
  | cons mail rest =>
    rw [handle_sent hmailbox, List.filter_append, LobbyActor2.receive_silent, List.append_nil]
    intro hrunning
    by_contra hstarts
    obtain ⟨sender, message⟩ := mail
    refine Bool.eq_false_iff.mp h (Room.startsSession_iff.mpr ⟨hrunning, sender, ?_⟩)
    cases message with
    | json raw =>
      cases raw with
      | none => exact absurd rfl hstarts
      | some message =>
        cases message with
        | startSession data => exact ⟨data, rest, hmailbox⟩
        | _ => exact absurd rfl hstarts
    | _ => exact absurd rfl hstarts

/-- The wait of a room is over: all its players are told of the session, if there is one. -/
theorem handle_start (hrunning : (σ.rooms l).actor.behaviour = .running) {sender : Connection} {data : String}
    {rest : List Mail} (hmailbox : (σ.rooms l).mailbox = ⟨sender, .json (some (.startSession data))⟩ :: rest)
    (answer : Option Int) : ((σ.handle l answer).rooms l).actor = (σ.rooms l).actor ∧
      (σ.handle l answer).sent.filter Write.starts =
        σ.sent.filter Write.starts ++ (σ.rooms l).actor.told σ.depot data answer := by
  obtain ⟨hlobby, -, -, hwrites⟩ := LobbyActor2.receive_startSession σ.depot sender l answer hrunning data
  refine ⟨?_, ?_⟩
  · rw [handle_room hmailbox]
    exact hlobby
  · rw [handle_sent hmailbox, List.filter_append, hwrites]

end Server

end MultiSlider
