import MultiSlider.Lobby.LobbyActor2

/-! A room: a lobby actor with its mailbox. `Handled` lists all that a running actor can do with a message;
    what holds of rooms is proved from it. -/

namespace MultiSlider

/-- A message in a mailbox with its sender, which forwarding keeps. -/
structure Mail where
  sender : Connection
  message : LobbyMessage
deriving DecidableEq, Repr

/-- An actor with its mailbox, the first message first. -/
structure Room where
  actor : LobbyActor2
  mailbox : List Mail
deriving DecidableEq, Repr

/-- A message of the actor to itself. -/
def LobbyMessage.isUpdate : LobbyMessage → Bool
  | .update .. => true
  | _ => false

namespace Room

/-- An actor that has been given no message. -/
def create : Room := ⟨.create, []⟩

variable (r : Room)

/-- A message for the actor; one for a stopped actor is lost. -/
def post (mail : Mail) : Room := if r.actor.stopped then r else { r with mailbox := r.mailbox ++ [mail] }

/-- The actor handles the first message of its mailbox: the room and the registry after it, and what was
    written. The mailbox of a stopped actor is lost. -/
def handle (d : Depot) (self : LobbyRef) (answer : Option Int) : Room × Depot × List Write :=
  match r.mailbox with
  | mail :: rest =>
    let o := r.actor.receive d mail.sender self answer mail.message
    let mailbox := if o.lobby.stopped then [] else rest ++ o.forwards.map fun message => ⟨mail.sender, message⟩
    (⟨o.lobby, mailbox⟩, o.depot, o.writes)
  | [] => (r, d, [])

/-- The actor is in its `running` behaviour. -/
def Open : Prop := r.actor.behaviour = .running ∧ r.actor.stopped = false

instance : Decidable r.Open := by unfold Open; infer_instance

variable {r : Room} {mail : Mail}

@[simp] theorem post_actor : (r.post mail).actor = r.actor := by
  unfold post
  split <;> rfl

theorem post_of_stopped (h : r.actor.stopped = true) : r.post mail = r := by
  unfold post
  rw [if_pos h]

/-- A message posted comes after those in the mailbox, if it is kept. -/
theorem post_mailbox (r : Room) (mail : Mail) :
    (r.post mail).mailbox = r.mailbox ∨ (r.post mail).mailbox = r.mailbox ++ [mail] := by
  unfold post
  split
  · exact Or.inl rfl
  · exact Or.inr rfl

end Room

namespace LobbyActor2

variable {a : LobbyActor2} {d : Depot} {sender : Connection} {self : LobbyRef} {answer : Option Int}

theorem makeRoomInfo_eq_none : a.makeRoomInfo = none ↔ a.players = [] := by
  simp [makeRoomInfo, getHost]

theorem makeRoomInfo_playersNumber {room : RoomInfo} (h : a.makeRoomInfo = some room) :
    room.playersNumber = a.players.length := by
  simp only [makeRoomInfo, Option.map_eq_some_iff] at h
  obtain ⟨host, -, rfl⟩ := h
  rfl

theorem makeRoomInfo_name {room : RoomInfo} (h : a.makeRoomInfo = some room) : room.name = a.name := by
  obtain ⟨host, -, rfl⟩ := Option.map_eq_some_iff.mp h
  rfl

/-- A `Join` under this name is accepted. -/
def Admits (a : LobbyActor2) (playerName : String) : Prop :=
  a.players.length < toInt (a.playersLimit - a.playersReserved) ∧ ∀ player ∈ a.players, player.name ≠ playerName

instance (a : LobbyActor2) (playerName : String) : Decidable (a.Admits playerName) := by
  unfold Admits
  infer_instance

/-- What a running actor does with a message. -/
inductive Handled (a : LobbyActor2) (d : Depot) (sender : Connection) : LobbyMessage → LobbyOutcome → Prop where
  | again {hostName roomName description : String} {playersLimit playersReserved : Int} {userParam : String} :
    Handled a d sender (.init hostName roomName description playersLimit playersReserved userParam) ⟨a, d, [], []⟩
  | refused {playerName raw : String} : Handled a d sender (.join playerName) ⟨a, d, [⟨sender, .text raw⟩], []⟩
  | joined {playerName : String} {b : LobbyActor2} {room : RoomInfo} (admits : a.Admits playerName)
    (next : b = { a with players := a.players ++ [⟨sender, playerName, false⟩] }) (info : b.makeRoomInfo = some room) :
    Handled a d sender (.join playerName)
      ⟨b, d.updateRoomInfo a.name room, [⟨sender, .room room⟩], [.update room "" playerName false flagJoined]⟩
  | stranger (absent : ∀ player ∈ a.players, player.actor ≠ sender) : Handled a d sender .disconnected ⟨a, d, [], []⟩
  | left {player : PlayerInfo2} {b : LobbyActor2} {room : RoomInfo}
    (found : a.players.find? (fun player => player.actor = sender) = some player)
    (next : b = { a with players := a.players.erase player }) (info : b.makeRoomInfo = some room) :
    Handled a d sender .disconnected ⟨b, d.updateRoomInfo a.name room, [], [.update room "" player.name false
      (flagLeft ||| (if a.getHost = some player then flagNewHost else 0) : Nat)]⟩
  | emptied {player : PlayerInfo2} (own : player.actor = sender) (last : a.players = [player]) :
    Handled a d sender .disconnected
      ⟨{ a with players := [], stopped := true }, d.unregisterLobby a.name, [], []⟩
  | closed : Handled a d sender .close ⟨a.shutdown, d.unregisterLobby a.name,
      a.players.map (ejectPlayer · (flagEjected ||| flagClosedByHost)), []⟩
  | nobody {room : RoomInfo} {data senderName : String} {toSelf : Bool} {flags : Int} (empty : a.players = []) :
    Handled a d sender (.update room data senderName toSelf flags) ⟨a, d, [], []⟩
  | told {old room : RoomInfo} {data senderName : String} {toSelf : Bool} {flags : Int}
    (info : a.makeRoomInfo = some room) :
    Handled a d sender (.update old data senderName toSelf flags)
      ⟨a, d, (a.players.filter fun player => toSelf || player.actor ≠ sender).map fun player =>
        ⟨player.actor, .json (.update room data senderName toSelf flags)⟩, []⟩
  | spoken {raw : Option RoomMessage} {writes : List Write} (stays : raw ≠ some .leaveRoom)
    (plain : ∀ w ∈ writes, w.payload.roomInfo = none) : Handled a d sender (.json raw) ⟨a, d, writes, []⟩
  | forwarded {room room' : RoomInfo} {data senderName : String} {toSelf : Bool} {flags flags' : Int} :
    Handled a d sender (.json (some (.update room data senderName toSelf flags)))
      ⟨a, d, [], [.update room' data senderName toSelf flags']⟩
  | leaving : Handled a d sender (.json (some .leaveRoom)) ⟨a, d, [], [.disconnected]⟩
  | ejected {playerName : String} {host player : PlayerInfo2} {b : LobbyActor2} {room : RoomInfo}
    (head : a.getHost = some host) (byHost : host.actor = sender) (other : host.name ≠ playerName)
    (found : a.players.find? (fun player => player.name = playerName) = some player)
    (next : b = { a with players := a.players.erase player }) (info : b.makeRoomInfo = some room) :
    Handled a d sender (.json (some (.ejectPlayer playerName)))
      ⟨b, d, [ejectPlayer player flagEjected], [.update room "" playerName true flagLeft]⟩
  | reconfigured {newLimit newReserved : Int} {host : PlayerInfo2} {b : LobbyActor2} {room : RoomInfo}
    (head : a.getHost = some host) (byHost : host.actor = sender)
    (next : b = { a with playersLimit := toInt newLimit, playersReserved := toInt newReserved })
    (info : b.makeRoomInfo = some room) :
    Handled a d sender (.json (some (.reconfigure newLimit newReserved)))
      ⟨b, d.updateRoomInfo a.name room,
        b.players.map fun player => ⟨player.actor, .json (.reconfigureSucc room)⟩, []⟩

theorem Handled.behaviour {m : LobbyMessage} {o : LobbyOutcome} (h : Handled a d sender m o) :
    o.lobby.behaviour = a.behaviour := by
  cases h with
  | joined _ next _ => rw [next]
  | left _ next _ => rw [next]
  | ejected _ _ _ _ next _ => rw [next]
  | reconfigured _ _ next _ => rw [next]
  | _ => rfl

theorem Handled.stopped {m : LobbyMessage} {o : LobbyOutcome} (h : Handled a d sender m o)
    (hstopped : a.stopped = true) : o.lobby.stopped = true := by
  cases h with
  | joined _ next _ => rwa [next]
  | left _ next _ => rwa [next]
  | ejected _ _ _ _ next _ => rwa [next]
  | reconfigured _ _ next _ => rwa [next]
  | emptied _ _ => rfl
  | closed => rfl
  | _ => exact hstopped

/-- The message has a player ejected: it names a player of the room, and comes from the host, whose name is
    another one. -/
def Ejects (a : LobbyActor2) (sender : Connection) : LobbyMessage → Prop
  | .json (some (.ejectPlayer playerName)) => (∃ host ∈ a.getHost, host.actor = sender ∧ host.name ≠ playerName) ∧
    ∃ player ∈ a.players, player.name = playerName
  | _ => False

instance (a : LobbyActor2) (sender : Connection) (m : LobbyMessage) : Decidable (a.Ejects sender m) := by
  unfold Ejects
  split <;> infer_instance

/-- What a message means for the registry: nothing changes, the change is published, a player is ejected, or
    the room ends. -/
theorem Handled.published {m : LobbyMessage} {o : LobbyOutcome} (h : Handled a d sender m o) :
    (o.lobby = a ∧ o.depot = d) ∨
    (o.lobby.stopped = a.stopped ∧ o.lobby.name = a.name ∧
      ∃ room, o.lobby.makeRoomInfo = some room ∧ o.depot = d.updateRoomInfo a.name room) ∨
    (a.Ejects sender m ∧ o.lobby.stopped = a.stopped ∧ o.lobby.name = a.name ∧ o.lobby.players ≠ [] ∧ o.depot = d) ∨
    (o.lobby.stopped = true ∧ o.depot = d.unregisterLobby a.name) := by
  cases h with
  | joined _ next info =>
    subst next
    exact Or.inr (Or.inl ⟨rfl, rfl, _, info, rfl⟩)
  | left _ next info =>
    subst next
    exact Or.inr (Or.inl ⟨rfl, rfl, _, info, rfl⟩)
  | reconfigured _ _ next info =>
    subst next
    exact Or.inr (Or.inl ⟨rfl, rfl, _, info, rfl⟩)
  | @ejected playerName host player b room head byHost other found next info =>
    subst next
    have hnamed : player.name = playerName := by simpa using List.find?_some found
    refine Or.inr (Or.inr (Or.inl ⟨⟨⟨host, head, byHost, other⟩, player, List.mem_of_find?_eq_some found, hnamed⟩,
      rfl, rfl, fun hempty => ?_, rfl⟩))
    cases info.symm.trans (makeRoomInfo_eq_none.mpr hempty)
  | emptied _ _ => exact Or.inr (Or.inr (Or.inr ⟨rfl, rfl⟩))
  | closed => exact Or.inr (Or.inr (Or.inr ⟨rfl, rfl⟩))
  | _ => exact Or.inl ⟨rfl, rfl⟩

theorem plain_of_text {raw : String} : ∀ w ∈ [Write.mk sender (.text raw)], w.payload.roomInfo = none := by
  intro w hw
  rw [List.mem_singleton.mp hw]
  rfl

theorem join_handled (playerName : String) : Handled a d sender (.join playerName) (a.join d sender playerName) := by
  unfold join
  split
  · rename_i hspace
    split
    · rename_i hfresh
      dsimp only
      split
      · rename_i room hroom
        refine .joined ⟨hspace, fun player hplayer heq => hfresh ?_⟩ rfl hroom
        exact List.any_eq_true.mpr ⟨player, hplayer, decide_eq_true heq⟩
      · rename_i hnone
        simp [makeRoomInfo_eq_none] at hnone
    · exact .refused
  · exact .refused

theorem disconnected_handled : Handled a d sender .disconnected (a.disconnected d sender) := by
  unfold disconnected
  split
  · rename_i player hfind
    have hmember := List.mem_of_find?_eq_some hfind
    have hown : player.actor = sender := by simpa using List.find?_some hfind
    dsimp only
    split
    · rename_i room hroom
      exact .left hfind rfl hroom
    · rename_i hnone
      have hempty := makeRoomInfo_eq_none.mp hnone
      dsimp only at hempty
      rw [hempty]
      refine .emptied hown ?_
      rw [List.erase_eq_nil_iff] at hempty
      rcases hempty with hnil | hone
      · rw [hnil] at hmember
        cases hmember
      · exact hone
  · rename_i hfind
    refine .stranger fun player hplayer => ?_
    simpa using List.find?_eq_none.mp hfind player hplayer

theorem update_handled (old : RoomInfo) (data senderName : String) (toSelf : Bool) (flags : Int) :
    Handled a d sender (.update old data senderName toSelf flags) (a.update d sender data senderName toSelf flags) := by
  unfold update
  split
  · rename_i room hroom
    exact .told hroom
  · rename_i hnone
    exact .nobody (makeRoomInfo_eq_none.mp hnone)

/-- One of another name than the host's may go: the host stays. -/
theorem host_stays {host player : PlayerInfo2} {playerName : String} (hhost : a.getHost = some host)
    (hother : host.name ≠ playerName) (hfind : a.players.find? (fun player => player.name = playerName) = some player) :
    a.players.erase player ≠ [] := by
  intro hempty
  have hnamed : player.name = playerName := by simpa using List.find?_some hfind
  have hne : host ≠ player := fun heq => hother (heq ▸ hnamed)
  have hhead := List.mem_of_mem_head? (Option.mem_def.mpr hhost)
  rw [← List.mem_erase_of_ne hne, hempty] at hhead
  cases hhead

theorem eject_handled (playerName : String) :
    Handled a d sender (.json (some (.ejectPlayer playerName))) (a.eject d sender playerName) := by
  unfold eject
  split
  · rename_i host hhost
    split
    · rename_i hby
      split
      · rename_i player hfind
        dsimp only
        split
        · rename_i room hroom
          exact .ejected hhost hby.1 hby.2 hfind rfl hroom
        · rename_i hnone
          exact absurd (makeRoomInfo_eq_none.mp hnone) (host_stays hhost hby.2 hfind)
      · exact .spoken (by simp) (List.forall_mem_nil _)
    · exact .spoken (by simp) (List.forall_mem_nil _)
  · exact .spoken (by simp) plain_of_text

theorem reconfigure_handled (newLimit newReserved : Int) :
    Handled a d sender (.json (some (.reconfigure newLimit newReserved)))
      (a.reconfigure d sender (toInt newLimit) (toInt newReserved)) := by
  unfold reconfigure
  split
  · rename_i host hhost
    split
    · rename_i hby
      split
      · refine .spoken (by simp) fun w hw => ?_
        rw [List.mem_singleton.mp hw]
        rfl
      · dsimp only
        split
        · rename_i room hroom
          exact .reconfigured hhost hby rfl hroom
        · rename_i hnone
          simp [makeRoomInfo, getHost] at hnone hhost
          simp [hnone] at hhost
    · exact .spoken (by simp) (List.forall_mem_nil _)
  · exact .spoken (by simp) plain_of_text

theorem startSession_plain (data : String) : ∃ writes, a.startSession d sender answer data = ⟨a, d, writes, []⟩ ∧
    ∀ w ∈ writes, w.payload.roomInfo = none := by
  unfold startSession
  split
  · split
    · refine ⟨_, rfl, fun w hw => ?_⟩
      obtain ⟨player, -, rfl⟩ := List.mem_map.mp hw
      rfl
    · exact ⟨_, rfl, plain_of_text⟩
  · exact ⟨_, rfl, plain_of_text⟩

/-- Whatever a running actor does is one of the cases. -/
theorem running_handled (answer : Option Int) (m : LobbyMessage) :
    Handled a d sender m (a.running d sender answer m) := by
  cases m with
  | init => exact .again
  | join playerName => exact join_handled playerName
  | close => exact .closed
  | disconnected => exact disconnected_handled
  | update room data senderName toSelf flags => exact update_handled room data senderName toSelf flags
  | json raw =>
    cases raw with
    | none => exact .spoken (by simp) plain_of_text
    | some message =>
      cases message with
      | leaveRoom => exact .leaving
      | update => exact .forwarded
      | message senderName data toSelf =>
        refine .spoken (by simp) fun w hw => ?_
        obtain ⟨player, -, rfl⟩ := List.mem_map.mp hw
        rfl
      | startSession data =>
        obtain ⟨writes, heq, hplain⟩ := startSession_plain data
        show Handled a d sender _ (a.startSession d sender answer data)
        rw [heq]
        exact .spoken (by simp) hplain
      | ejectPlayer playerName => exact eject_handled playerName
      | reconfigure newLimit newReserved => exact reconfigure_handled newLimit newReserved
      | _ => exact .spoken (by simp) (List.forall_mem_nil _)

/-- A message that has a player ejected does so. -/
theorem receive_ejects {m : LobbyMessage} (d : Depot) (self : LobbyRef) (answer : Option Int)
    (hrunning : a.behaviour = .running) (h : a.Ejects sender m) :
    ∃ player ∈ a.players, (a.receive d sender self answer m).lobby = { a with players := a.players.erase player } ∧
      (a.receive d sender self answer m).depot = d := by
  unfold Ejects at h
  split at h
  · rename_i playerName
    obtain ⟨⟨host, hhost, hby⟩, player, hplayer, hnamed⟩ := h
    have heq : a.receive d sender self answer (.json (some (.ejectPlayer playerName))) =
        a.eject d sender playerName := by
      unfold receive
      rw [hrunning]
      rfl
    rw [heq]
    unfold eject
    rw [Option.mem_def.mp hhost]
    dsimp only
    rw [if_pos hby]
    cases hfind : a.players.find? (fun player => player.name = playerName) with
    | none =>
      have hother := List.find?_eq_none.mp hfind player hplayer
      simp only [hnamed, decide_true, not_true_eq_false] at hother
    | some found =>
      refine ⟨found, List.mem_of_find?_eq_some hfind, ?_⟩
      dsimp only
      split <;> exact ⟨rfl, rfl⟩
  · exact h.elim

/-- `Init` succeeds: the creator is the only player, and the room is registered under its name. -/
structure Opened (a : LobbyActor2) (d : Depot) (sender : Connection) (handler : LobbyRef)
    (o : LobbyOutcome) : Prop where
  running : o.lobby.behaviour = .running
  stopped : o.lobby.stopped = a.stopped
  players : ∃ name, o.lobby.players = a.players ++ [⟨sender, name, false⟩]
  depot : ∃ room, o.lobby.makeRoomInfo = some room ∧ o.writes = [⟨sender, .room room⟩] ∧ d.get o.lobby.name = none ∧
    ∀ roomName, o.depot.get roomName = if roomName = o.lobby.name then some ⟨handler, room⟩ else d.get roomName
  forwards : o.forwards = []

theorem init_cases (a : LobbyActor2) (d : Depot) (sender : Connection) (self : LobbyRef)
    (hostName roomName description : String) (playersLimit playersReserved : Int) (userParam : String) :
    let o := a.init d sender self hostName roomName description playersLimit playersReserved userParam
    Opened a d sender self o ∨ (o.lobby.behaviour = .zombie ∧ o.depot = d ∧ o.forwards = []) := by
  unfold init
  dsimp only
  split
  · rename_i room hroom
    have hname : room.name = roomName := by
      simp only [makeRoomInfo, Option.map_eq_some_iff] at hroom
      obtain ⟨host, -, rfl⟩ := hroom
      rfl
    split
    · rename_i d' hregister
      obtain ⟨hnew, hd'⟩ := Depot.registerLobby_succ hregister
      rw [hname] at hnew hd'
      exact Or.inl ⟨rfl, rfl, ⟨hostName, rfl⟩, ⟨room, hroom, rfl, hnew, hd'⟩, rfl⟩
    · rename_i d' hregister
      exact Or.inr ⟨rfl, Depot.registerLobby_fail hregister nofun, rfl⟩
    · rename_i d' hregister
      exact Or.inr ⟨rfl, Depot.registerLobby_fail hregister nofun, rfl⟩
  · rename_i hnone
    simp [makeRoomInfo_eq_none] at hnone

/-- The registry after `Init`. -/
theorem init_depot (a : LobbyActor2) (d : Depot) (sender : Connection) (self : LobbyRef)
    (hostName roomName description : String) (playersLimit playersReserved : Int) (userParam : String) :
    let o := a.init d sender self hostName roomName description playersLimit playersReserved userParam
    o.depot = d ∨ ∃ room, o.depot = (d.registerLobby self room).1 := by
  unfold init
  dsimp only
  split
  · rename_i room hroom
    refine Or.inr ⟨room, ?_⟩
    split <;> simp only [done, *]
  · exact Or.inl rfl

/-- The actor outside its `running` behaviour: it opens, or it changes nothing that can be seen. -/
theorem receive_cases (a : LobbyActor2) (d : Depot) (sender : Connection) (self : LobbyRef) (answer : Option Int)
    (m : LobbyMessage) : let o := a.receive d sender self answer m
    (a.behaviour = .running ∧ Handled a d sender m o) ∨
    (a.behaviour = .initial ∧ (∃ hostName roomName description playersLimit playersReserved userParam,
      m = .init hostName roomName description playersLimit playersReserved userParam) ∧ Opened a d sender self o) ∨
    (a.behaviour ≠ .running ∧ o.depot = d ∧ o.forwards = [] ∧
      ((a.behaviour = .initial ∧ o.lobby = a) ∨ o.lobby.behaviour = .zombie)) := by
  unfold receive
  cases hbehaviour : a.behaviour with
  | initial =>
    cases m with
    | init hostName roomName description playersLimit playersReserved userParam =>
      rcases init_cases a d sender self hostName roomName description playersLimit playersReserved userParam with
        hopened | ⟨hzombie, hdepot, hforwards⟩
      · exact Or.inr (Or.inl ⟨rfl, ⟨_, _, _, _, _, _, rfl⟩, hopened⟩)
      · exact Or.inr (Or.inr ⟨nofun, hdepot, hforwards, Or.inr hzombie⟩)
    | _ => exact Or.inr (Or.inr ⟨nofun, rfl, rfl, Or.inl ⟨rfl, rfl⟩⟩)
  | running => exact Or.inl ⟨rfl, running_handled answer m⟩
  | zombie =>
    cases m with
    | disconnected => exact Or.inr (Or.inr ⟨nofun, rfl, rfl, Or.inr hbehaviour⟩)
    | _ => exact Or.inr (Or.inr ⟨nofun, rfl, rfl, Or.inr hbehaviour⟩)

/-- The registry after any message. -/
theorem receive_depot (a : LobbyActor2) (d : Depot) (sender : Connection) (self : LobbyRef) (answer : Option Int)
    (m : LobbyMessage) : let o := a.receive d sender self answer m
    o.depot = d ∨ (∃ room, o.depot = d.updateRoomInfo a.name room) ∨ o.depot = d.unregisterLobby a.name ∨
      ∃ room, o.depot = (d.registerLobby self room).1 := by
  unfold receive
  cases a.behaviour with
  | initial =>
    cases m with
    | init hostName roomName description playersLimit playersReserved userParam =>
      rcases init_depot a d sender self hostName roomName description playersLimit playersReserved userParam with
        hdepot | hdepot
      · exact Or.inl hdepot
      · exact Or.inr (Or.inr (Or.inr hdepot))
    | _ => exact Or.inl rfl
  | running =>
    have hhandled : Handled a d sender m (a.running d sender answer m) := running_handled answer m
    rcases hhandled.published with ⟨-, hdepot⟩ |
      ⟨-, -, room, -, hdepot⟩ | ⟨-, -, -, -, hdepot⟩ | ⟨-, hdepot⟩
    · exact Or.inl hdepot
    · exact Or.inr (Or.inl ⟨room, hdepot⟩)
    · exact Or.inl hdepot
    · exact Or.inr (Or.inr (Or.inl hdepot))
  | zombie => cases m <;> exact Or.inl rfl

end LobbyActor2

end MultiSlider
