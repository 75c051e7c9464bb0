import MultiSlider.Lobby.Directory
import MultiSlider.Lobby.RoomInfo
import MultiSlider.Lobby.Seats

/-! The parameters of a room on their way from `createRoom` to the descriptors that the clients read. The client has
    them as `uint32_t`, the server takes the numbers as `Int`, and the client casts what comes back to `uint32_t`. -/

namespace MultiSlider

open Json (Object)

/-- The description as the server writes it. -/
def RoomInfo.toJson (room : RoomInfo) : Object :=
  [("name", .string room.name), ("host", .string room.host), ("description", .string room.description),
    ("playersLimit", .number room.playersLimit), ("playersReserved", .number room.playersReserved),
    ("playersNumber", .number room.playersNumber),
    ("players", match room.players with
      | some names => .array (names.map .string)
      | none => .null),
    ("userParam", .string room.userParam)]

namespace RoomInfo

/-- The numbers are those of a `uint32_t`, and the players are counted. -/
structure Readable (room : RoomInfo) : Prop where
  playersLimit : 0 ≤ room.playersLimit ∧ room.playersLimit < 2 ^ 32
  playersReserved : 0 ≤ room.playersReserved ∧ room.playersReserved < 2 ^ 32
  playersNumber : 0 ≤ room.playersNumber ∧ room.playersNumber < 2 ^ 32
  players : ∀ names ∈ room.players, (names.length : Int) = room.playersNumber

/-- The client's descriptor for it. -/
def toClient (room : RoomInfo) : ClientRoomInfo where
  roomName := room.name
  hostName := room.host
  description := room.description
  playersLimit := room.playersLimit.toNat
  playersNumber := room.playersNumber.toNat
  playersReserved := room.playersReserved.toNat
  players := room.players.getD []
  userParameter := room.userParam

variable {room : RoomInfo}

theorem number_eq_iff {x : Int} {n : Nat} :
    some (Json.number x) = some (.number n) ∧ n < 2 ^ 32 ↔ (0 ≤ x ∧ x < 2 ^ 32) ∧ n = x.toNat := by
  rw [Option.some.injEq, Json.number.injEq]
  constructor
  · rintro ⟨heq, hn⟩
    have hx : x = n := by exact_mod_cast heq
    omega
  · rintro ⟨⟨hlow, hhigh⟩, rfl⟩
    refine ⟨?_, by omega⟩
    exact_mod_cast (Int.toNat_of_nonneg hlow).symm

theorem playersAre_iff {names : List String} {n : Nat} :
    Json.PlayersAre room.toJson names n ↔
      names = room.players.getD [] ∧ ∀ listed ∈ room.players, listed.length = n := by
  unfold Json.PlayersAre
  have hlookup : room.toJson.lookup "players" = some (match room.players with
      | some names => .array (names.map .string)
      | none => .null) := rfl
  rw [hlookup]
  cases room.players with
  | some listed =>
    have hinjective : Function.Injective Json.string := fun _ _ h => Json.string.inj h
    have harray : some (Json.array (listed.map .string)) = some (.array (names.map .string)) ↔ names = listed := by
      rw [Option.some.injEq, Json.array.injEq, (List.map_injective_iff.mpr hinjective).eq_iff, eq_comm]
    dsimp only
    rw [harray, or_iff_left fun h => h.1 _ rfl]
    simp only [Option.getD_some, Option.mem_def, Option.some.injEq, forall_eq']
    exact and_congr_right fun hnames => by rw [hnames]
  | none => simp

/-- The client reads a description exactly if it can, and then as it is. -/
theorem readInfo_toJson_iff {read : ClientRoomInfo} :
    Json.readInfo room.toJson = .ok read ↔ room.Readable ∧ read = room.toClient := by
  rw [Json.readInfo_eq_ok_iff]
  constructor
  · rintro ⟨hname, hhost, hdescription, hlimit, hnumber, hreserved, hplayers, huser⟩
    obtain ⟨hlimit, hlimit'⟩ := number_eq_iff.mp hlimit
    obtain ⟨hnumber, hnumber'⟩ := number_eq_iff.mp hnumber
    obtain ⟨hreserved, hreserved'⟩ := number_eq_iff.mp hreserved
    obtain ⟨hlisted, hlength⟩ := playersAre_iff.mp hplayers
    refine ⟨⟨hlimit, hreserved, hnumber, fun names hnames => ?_⟩, ?_⟩
    · rw [hlength names hnames, hnumber', Int.toNat_of_nonneg hnumber.1]
    · cases read
      cases hname
      cases hhost
      cases hdescription
      cases huser
      dsimp only at hlimit' hnumber' hreserved' hlisted
      rw [hlimit', hnumber', hreserved', hlisted]
      rfl
  · rintro ⟨h, rfl⟩
    refine ⟨rfl, rfl, rfl, number_eq_iff.mpr ⟨h.playersLimit, rfl⟩, number_eq_iff.mpr ⟨h.playersNumber, rfl⟩,
      number_eq_iff.mpr ⟨h.playersReserved, rfl⟩, playersAre_iff.mpr ⟨rfl, fun names hnames => ?_⟩, rfl⟩
    have hlength := h.players names hnames
    show names.length = room.playersNumber.toNat
    omega

end RoomInfo

/-- What a call of `createRoom` asks for. -/
structure RoomParameters where
  playerName : String
  roomName : String
  description : String
  playersLimit : UInt32
  playersReserved : UInt32
  userParameter : String
deriving DecidableEq, Repr

namespace RoomParameters

variable (p : RoomParameters)

/-- The call that asks for a room with these parameters. -/
def call : LobbyCall :=
  .createRoom p.playerName p.roomName p.description p.playersLimit p.playersReserved p.userParameter

/-- The message that the client sends for it. -/
def message : FrontendMessage :=
  .createRoom p.playerName p.roomName p.description p.playersLimit.toNat p.playersReserved.toNat p.userParameter

/-- The message that the actor of the room gets for it. -/
def init : LobbyMessage :=
  .init p.playerName p.roomName p.description (toInt p.playersLimit.toNat) (toInt p.playersReserved.toNat)
    p.userParameter

/-- The places that are not reserved. -/
def places : Nat := p.playersLimit.toNat - p.playersReserved.toNat

/-- A descriptor of the client with all that was asked for. -/
structure CarriedBy (info : ClientRoomInfo) : Prop where
  roomName : info.roomName = p.roomName
  hostName : info.hostName = p.playerName
  description : info.description = p.description
  playersLimit : info.playersLimit = p.playersLimit.toNat
  playersReserved : info.playersReserved = p.playersReserved.toNat
  userParameter : info.userParameter = p.userParameter

/-- The client reads the description as a descriptor with all that was asked for. -/
def Arrives (room : RoomInfo) : Prop :=
  ∀ info : ClientRoomInfo, ∃ read, info.deserializeObject room.toJson = some (true, read) ∧ p.CarriedBy read

/-- A description of the server with all that was asked for, and a sound number of players. -/
structure DescribedBy (room : RoomInfo) : Prop where
  name : room.name = p.roomName
  host : room.host = p.playerName
  description : room.description = p.description
  playersLimit : room.playersLimit = p.playersLimit.toNat
  playersReserved : room.playersReserved = p.playersReserved.toNat
  userParam : room.userParam = p.userParameter
  playersNumber : 0 ≤ room.playersNumber ∧ room.playersNumber ≤ p.places
  players : ∀ names ∈ room.players, (names.length : Int) = room.playersNumber

variable {p} {room : RoomInfo}

theorem arrives_iff : p.Arrives room ↔ room.Readable ∧ p.CarriedBy room.toClient := by
  unfold Arrives ClientRoomInfo.deserializeObject
  constructor
  · intro h
    obtain ⟨read, hread, hcarried⟩ := h room.toClient
    split at hread
    · rename_i read' hok
      obtain ⟨hreadable, rfl⟩ := RoomInfo.readInfo_toJson_iff.mp hok
      cases hread
      exact ⟨hreadable, hcarried⟩
    · cases hread
    · cases hread
  · rintro ⟨hreadable, hcarried⟩ info
    rw [RoomInfo.readInfo_toJson_iff.mpr ⟨hreadable, rfl⟩]
    exact ⟨_, rfl, hcarried⟩

theorem DescribedBy.arrives (h : p.DescribedBy room) : p.Arrives room := by
  have hlimit : p.playersLimit.toNat < 2 ^ 32 := p.playersLimit.toNat_lt
  have hreserved : p.playersReserved.toNat < 2 ^ 32 := p.playersReserved.toNat_lt
  have hplaces : p.places ≤ p.playersLimit.toNat := Nat.sub_le _ _
  refine arrives_iff.mpr ⟨⟨?_, ?_, ?_, h.players⟩, ⟨h.name, h.host, h.description, ?_, ?_, h.userParam⟩⟩
  · rw [h.playersLimit]
    omega
  · rw [h.playersReserved]
    omega
  · have hnumber := h.playersNumber
    omega
  · exact (congrArg Int.toNat h.playersLimit).trans (Int.toNat_natCast _)
  · exact (congrArg Int.toNat h.playersReserved).trans (Int.toNat_natCast _)

theorem DescribedBy.noPlayers (h : p.DescribedBy room) : p.DescribedBy room.noPlayers where
  name := h.name
  host := h.host
  description := h.description
  playersLimit := h.playersLimit
  playersReserved := h.playersReserved
  userParam := h.userParam
  playersNumber := h.playersNumber
  players _ hnames := nomatch hnames

/-- A call that is let through. -/
theorem accepted {s s' : Lobby} {message : FrontendMessage} (h : s.call p.call = some (s', message)) :
    message = p.message ∧ p.playersReserved.toNat < p.playersLimit.toNat := by
  unfold Lobby.call call at h
  split at h
  · cases h
  · obtain ⟨⟨-, -, hlimits⟩, heq⟩ := Option.ite_none_right_eq_some.mp h
    cases heq
    refine ⟨rfl, ?_⟩
    simp only [Lobby.limitsOk, Bool.and_eq_true, decide_eq_true_eq, UInt32.le_iff_toNat_le] at hlimits
    obtain ⟨hone, hless⟩ := hlimits
    have hsub : (p.playersLimit - 1).toNat = p.playersLimit.toNat - 1 :=
      UInt32.toNat_sub_of_le _ _ (UInt32.le_iff_toNat_le.mpr hone)
    have hone' : 1 ≤ p.playersLimit.toNat := hone
    omega

end RoomParameters

/-! ### The room -/

/-- The message ends the room, or takes the player of `c` out of it or has it change the limits. -/
def LobbyMessage.alters (sender c : Connection) : LobbyMessage → Bool
  | .close => true
  | .disconnected | .json (some (.reconfigure _ _)) => sender = c
  | _ => false

namespace LobbyActor2

/-- The room as it was asked for, with `c` as the host and no more players than places. -/
structure Furnished (a : LobbyActor2) (c : Connection) (p : RoomParameters) : Prop where
  name : a.name = p.roomName
  description : a.description = p.description
  playersLimit : a.playersLimit = p.playersLimit.toNat
  playersReserved : a.playersReserved = p.playersReserved.toNat
  userParam : a.userParam = p.userParameter
  host : ∃ others, a.players = ⟨c, p.playerName, false⟩ :: others
  crowd : a.players.length ≤ p.places

variable {a : LobbyActor2} {d : Depot} {c sender : Connection} {self : LobbyRef} {answer : Option Int}
  {p : RoomParameters} {room : RoomInfo}

theorem Furnished.describedBy (h : a.Furnished c p) (hroom : a.makeRoomInfo = some room) : p.DescribedBy room := by
  obtain ⟨others, hothers⟩ := h.host
  have hcrowd := h.crowd
  simp only [makeRoomInfo, getHost, hothers, List.head?_cons, Option.map_some, Option.some.injEq] at hroom
  subst hroom
  refine ⟨h.name, rfl, h.description, h.playersLimit, h.playersReserved, h.userParam, ?_, fun names hnames => ?_⟩
  · rw [hothers] at hcrowd
    exact ⟨Int.natCast_nonneg _, Int.ofNat_le.mpr hcrowd⟩
  · cases hnames
    rw [List.length_map]

theorem Furnished.getHost (h : a.Furnished c p) : a.getHost = some ⟨c, p.playerName, false⟩ := by
  obtain ⟨others, hothers⟩ := h.host
  rw [LobbyActor2.getHost, hothers]
  rfl

/-- There is room for another player exactly while there are fewer than places. -/
theorem Furnished.space_iff (h : a.Furnished c p) (hless : p.playersReserved.toNat < p.playersLimit.toNat)
    (hlimit : p.playersLimit.toNat < 2 ^ 31) :
    (a.players.length : Int) < toInt (a.playersLimit - a.playersReserved) ↔ a.players.length < p.places := by
  rw [h.playersLimit, h.playersReserved, toInt_of_range (by omega) (by omega)]
  unfold RoomParameters.places
  omega

/-- One of the others goes. -/
theorem Furnished.erase (h : a.Furnished c p) {player : PlayerInfo2} (hother : player ≠ ⟨c, p.playerName, false⟩) :
    Furnished { a with players := a.players.erase player } c p := by
  obtain ⟨others, hothers⟩ := h.host
  refine ⟨h.name, h.description, h.playersLimit, h.playersReserved, h.userParam, ⟨others.erase player, ?_⟩,
    List.length_erase_le.trans h.crowd⟩
  dsimp only
  rw [hothers, List.erase_cons_tail]
  simpa using hother.symm

/-- A message that alters nothing of it leaves the room as it was asked for, and publishes it so. -/
theorem Furnished.handled {m : LobbyMessage} {o : LobbyOutcome} (h : a.Furnished c p)
    (hless : p.playersReserved.toNat < p.playersLimit.toNat) (hlimit : p.playersLimit.toNat < 2 ^ 31)
    (hhandled : Handled a d sender m o) (hm : m.alters sender c = false) :
    o.lobby.Furnished c p ∧ o.lobby.stopped = a.stopped ∧
      (o.depot = d ∨ ∃ room, p.DescribedBy room ∧ o.depot = d.updateRoomInfo a.name room) := by
  cases hhandled with
  | @joined playerName b room admits next info =>
    have hjoined : b.Furnished c p := by
      obtain ⟨others, hothers⟩ := h.host
      subst next
      refine ⟨h.name, h.description, h.playersLimit, h.playersReserved, h.userParam,
        ⟨others ++ [⟨sender, playerName, false⟩], ?_⟩, ?_⟩
      · rw [hothers, List.cons_append]
      · have hspace := (h.space_iff hless hlimit).mp admits.1
        rw [List.length_append, List.length_singleton]
        exact hspace
    exact ⟨hjoined, by rw [next], Or.inr ⟨room, hjoined.describedBy info, rfl⟩⟩
  | @left player b room found next info =>
    have hother : player ≠ ⟨c, p.playerName, false⟩ := by
      rintro rfl
      have hown : c = sender := by simpa using List.find?_some found
      exact of_decide_eq_false hm hown.symm
    have hleft : b.Furnished c p := by
      rw [next]
      exact h.erase hother
    exact ⟨hleft, by rw [next], Or.inr ⟨room, hleft.describedBy info, rfl⟩⟩
  | @emptied player own last =>
    obtain ⟨others, hothers⟩ := h.host
    rw [hothers] at last
    cases last
    exact absurd own.symm (of_decide_eq_false hm)
  | closed => cases hm
  | @ejected playerName host player b room head byHost other found next info =>
    cases h.getHost.symm.trans head
    have hother : player ≠ ⟨c, p.playerName, false⟩ := by
      rintro rfl
      exact other (by simpa using List.find?_some found)
    refine ⟨?_, by rw [next], Or.inl rfl⟩
    rw [next]
    exact h.erase hother
  | reconfigured head byHost _ _ =>
    cases h.getHost.symm.trans head
    exact absurd byHost.symm (of_decide_eq_false hm)
  | _ => exact ⟨h, rfl, Or.inl rfl⟩

/-- What a new actor does with the request, if it answers with a description. -/
theorem init_answered {room : RoomInfo}
    (h : (create.receive d c self answer p.init).writes = [⟨c, .room room⟩]) :
    let o := create.receive d c self answer p.init
    o.lobby = ⟨.running, false, p.roomName, p.description, [⟨c, p.playerName, false⟩], toInt p.playersLimit.toNat,
      toInt p.playersReserved.toNat, p.userParameter⟩ ∧ o.lobby.makeRoomInfo = some room ∧
      o.depot.get p.roomName = some ⟨self, room⟩ := by
  have hinit : create.receive d c self answer p.init = create.init d c self p.playerName p.roomName p.description
    (toInt p.playersLimit.toNat) (toInt p.playersReserved.toNat) p.userParameter := rfl
  rw [hinit] at h ⊢
  unfold init at h ⊢
  dsimp only at h ⊢
  split at h
  · rename_i room' hroom
    split at h
    · rename_i d' hregister
      cases h
      obtain ⟨-, hget⟩ := Depot.registerLobby_succ hregister
      refine ⟨rfl, hroom, ?_⟩
      have hname : room.name = p.roomName := by
        cases hroom
        rfl
      show d'.get p.roomName = some ⟨self, room⟩
      rw [hget, if_pos hname.symm]
    · cases h
    · cases h
  · cases h

/-- A `Join` under a fresh name is a matter of space. -/
theorem receive_join {playerName : String} (d : Depot) (sender : Connection) (self : LobbyRef) (answer : Option Int)
    (hrunning : a.behaviour = .running) (hfresh : ∀ player ∈ a.players, player.name ≠ playerName) :
    let o := a.receive d sender self answer (.join playerName)
    if a.players.length < toInt (a.playersLimit - a.playersReserved) then
      (∃ room, o.writes = [⟨sender, .room room⟩]) ∧ o.lobby.players = a.players ++ [⟨sender, playerName, false⟩]
    else o.writes = [⟨sender, .text responseRoomIsFull⟩] ∧ o.lobby.players = a.players := by
  have hreceive : a.receive d sender self answer (.join playerName) = a.join d sender playerName := by
    unfold receive
    rw [hrunning]
    rfl
  have hnone : ¬a.players.any (fun player => player.name = playerName) = true := by
    simpa using hfresh
  rw [hreceive]
  unfold join
  dsimp only
  split
  · split
    · rename_i room hroom
      exact ⟨⟨room, rfl⟩, rfl⟩
    · rename_i hroom
      simp [makeRoomInfo_eq_none] at hroom
  · exact ⟨rfl, rfl⟩

end LobbyActor2

/-! ### The server -/

namespace Server

/-- Room `l` is open as it was asked for, and the registry has a description that says so. -/
structure Furnished (σ : Server) (l : LobbyRef) (c : Connection) (p : RoomParameters) : Prop where
  live : (σ.rooms l).Open
  actor : (σ.rooms l).actor.Furnished c p
  stored : ∃ info, σ.depot.get p.roomName = some ⟨l, info⟩ ∧ p.DescribedBy info

/-- The actor of room `l` handles nothing that ends the room, takes the player of `c` out of it or has it change the
    limits. -/
def LeavesAlone (l : LobbyRef) (c : Connection) (σ : Server) : ServerAction → Prop
  | .handle l' _ => l' = l → ∀ mail ∈ (σ.rooms l).mailbox.head?, mail.message.alters mail.sender c = false
  | _ => True

instance (l : LobbyRef) (c : Connection) (σ : Server) : (b : ServerAction) → Decidable (LeavesAlone l c σ b)
  | .handle l' _ => inferInstanceAs
    (Decidable (l' = l → ∀ mail ∈ (σ.rooms l).mailbox.head?, mail.message.alters mail.sender c = false))
  | .received _ _ | .closed _ => isTrue trivial

/-- Each entry of the registry is under the name in its description. -/
def Named (σ : Server) : Prop := ∀ roomName stats, σ.depot.get roomName = some stats → stats.info.name = roomName

/-- `GetRooms` reports the room, and nothing under its name that is not as it was asked for. -/
def Reports (σ : Server) (p : RoomParameters) : Prop :=
  (∃ listed ∈ σ.depot.getRooms, listed.name = p.roomName) ∧
    ∀ listed ∈ σ.depot.getRooms, listed.name = p.roomName → listed.players = none ∧ p.Arrives listed

/-- The `Join` that the actor of room `l` handles next is answered with a description. -/
def Admitted (σ : Server) (l : LobbyRef) (joiner : Connection) (playerName : String) (answer : Option Int) : Prop :=
  (∃ room, (σ.handle l answer).sent = σ.sent ++ [⟨joiner, .room room⟩]) ∧
    ((σ.handle l answer).rooms l).actor.players = (σ.rooms l).actor.players ++ [⟨joiner, playerName, false⟩]

/-- Whoever joins under a fresh name is admitted exactly while there are fewer players than places. -/
def AdmitsExactly (σ : Server) (l : LobbyRef) (p : RoomParameters) : Prop :=
  ∀ joiner playerName rest answer, (σ.rooms l).mailbox = ⟨joiner, .join playerName⟩ :: rest →
    (∀ player ∈ (σ.rooms l).actor.players, player.name ≠ playerName) →
    (σ.Admitted l joiner playerName answer ↔ (σ.rooms l).actor.players.length < p.places)

/-- What was asked for arrives with the answer `room`, and while the room is left alone it is reported and admits its
    players so. -/
def Survives (σ : Server) (l : LobbyRef) (c : Connection) (p : RoomParameters) (room : RoomInfo) : Prop :=
  p.Arrives room ∧ ∀ cs, Machine.Along step (LeavesAlone l c) σ cs →
    (Machine.run step σ cs).Reports p ∧ (Machine.run step σ cs).AdmitsExactly l p

variable {σ : Server} {l : LobbyRef} {c : Connection} {p : RoomParameters} {answer : Option Int}

theorem Named.start (ipBackend : String) (portBackend : Int) : Named (start ipBackend portBackend) := by
  intro roomName stats hlookup
  rw [Server.start, Depot.get_create] at hlookup
  cases hlookup

theorem Named.handle (h : Named σ) (hregistry : Registry σ) : Named (σ.handle l answer) := by
  cases hmailbox : (σ.rooms l).mailbox with
  | nil => rwa [handle_idle hmailbox]
  | cons mail rest =>
    have hpublished := hregistry.published hmailbox answer
    intro roomName stats hlookup
    rw [handle_depot hmailbox] at hlookup
    rcases hpublished.own roomName stats hlookup with ⟨hl, hopen, hname⟩ | ⟨-, hold⟩
    · rcases hpublished.self hopen.1 hopen.2 with ⟨info, hinfo, hstored⟩ | ⟨-, hsame, -, -⟩
      · rw [hname, hlookup] at hstored
        cases hstored
        exact (LobbyActor2.makeRoomInfo_name hinfo).trans hname
      · rw [hsame] at hlookup
        exact h roomName stats hlookup
    · exact h roomName stats hold

theorem Named.step (h : Named σ) (hregistry : Registry σ) (b : ServerAction) : Named (σ.step b) := by
  cases b with
  | received c raw => exact h
  | closed c => exact h
  | handle l answer => exact h.handle hregistry

/-- So it is in every run. -/
theorem registry_named (ipBackend : String) (portBackend : Int) (as : List ServerAction) :
    Registry (Machine.run step (start ipBackend portBackend) as) ∧
      Named (Machine.run step (start ipBackend portBackend) as) :=
  Machine.run_keeps (P := fun σ => Registry σ ∧ Named σ) (fun _ b h => ⟨h.1.step b, h.2.step h.1 b⟩)
    ⟨.start ipBackend portBackend, .start ipBackend portBackend⟩ as

/-- A step of the room itself. -/
theorem Furnished.handle (h : Furnished σ l c p) (hless : p.playersReserved.toNat < p.playersLimit.toNat)
    (hlimit : p.playersLimit.toNat < 2 ^ 31) (halone : LeavesAlone l c σ (.handle l answer)) :
    Furnished (σ.handle l answer) l c p := by
  cases hmailbox : (σ.rooms l).mailbox with
  | nil => rwa [handle_idle hmailbox]
  | cons mail rest =>
    have hm : mail.message.alters mail.sender c = false := halone rfl mail (by rw [hmailbox]; rfl)
    have hhandled := LobbyActor2.receive_running σ.depot mail.sender l answer h.live.1 mail.message
    obtain ⟨hactor, hstopped, hdepot⟩ := h.actor.handled hless hlimit hhandled hm
    have hroom := handle_room hmailbox answer
    refine ⟨?_, ?_, ?_⟩
    · rw [hroom]
      exact ⟨hhandled.behaviour.trans h.live.1, hstopped.trans h.live.2⟩
    · rw [hroom]
      exact hactor
    · obtain ⟨old, hold, hdescribed⟩ := h.stored
      rw [handle_depot hmailbox]
      rcases hdepot with hsame | ⟨room, hroom', hupdate⟩
      · rw [hsame]
        exact ⟨old, hold, hdescribed⟩
      · rw [hupdate]
        refine ⟨room, ?_, hroom'⟩
        rw [Depot.get_updateRoomInfo, h.actor.name, if_pos rfl, hold]
        rfl

theorem Furnished.turn (h : Furnished σ l c p) {c' : Connection} {o : ClientOutcome} :
    Furnished (σ.turn c' o) l c p := by
  refine ⟨turn_open.mpr h.live, ?_, h.stored⟩
  rw [turn_actor]
  exact h.actor

theorem Furnished.step (h : Furnished σ l c p) (hregistry : Registry σ)
    (hless : p.playersReserved.toNat < p.playersLimit.toNat) (hlimit : p.playersLimit.toNat < 2 ^ 31)
    {b : ServerAction} (halone : LeavesAlone l c σ b) : Furnished (σ.step b) l c p := by
  cases b with
  | received c' raw => exact h.turn
  | closed c' => exact h.turn
  | handle l' answer =>
    by_cases hl : l' = l
    · subst hl
      exact h.handle hless hlimit halone
    · have hroom : (σ.step (.handle l' answer)).rooms l = σ.rooms l := handle_other (Ne.symm hl)
      obtain ⟨info, hlookup, hdescribed⟩ := h.stored
      refine ⟨hroom ▸ h.live, hroom ▸ h.actor, info, ?_, hdescribed⟩
      refine hregistry.undisturbed hlookup fun answer' heq => hl ?_
      cases heq
      rfl

/-- What `GetRooms` reports of it. -/
theorem Furnished.reports (h : Furnished σ l c p) (hnamed : Named σ) : σ.Reports p := by
  obtain ⟨info, hlookup, hdescribed⟩ := h.stored
  refine ⟨⟨info.noPlayers, Depot.getRooms_of_get hlookup, hdescribed.name⟩, fun listed hlisted hname => ?_⟩
  obtain ⟨roomName, stats, hstats, rfl⟩ := Depot.mem_getRooms hlisted
  have hkey : roomName = p.roomName := (hnamed roomName stats hstats).symm.trans hname
  rw [hkey, hlookup] at hstats
  cases hstats
  exact ⟨rfl, hdescribed.noPlayers.arrives⟩

/-- Whom it admits. -/
theorem Furnished.admitsExactly (h : Furnished σ l c p) (hless : p.playersReserved.toNat < p.playersLimit.toNat)
    (hlimit : p.playersLimit.toNat < 2 ^ 31) : σ.AdmitsExactly l p := by
  intro joiner playerName rest answer hmailbox hfresh
  have hjoin := LobbyActor2.receive_join σ.depot joiner l answer h.live.1 hfresh
  unfold Admitted
  rw [handle_room hmailbox, handle_sent hmailbox, ← h.actor.space_iff hless hlimit]
  dsimp only at hjoin ⊢
  split at hjoin
  · rename_i hspace
    obtain ⟨⟨room, hwrites⟩, hplayers⟩ := hjoin
    exact iff_of_true ⟨⟨room, by rw [hwrites]⟩, hplayers⟩ hspace
  · rename_i hspace
    refine iff_of_false ?_ hspace
    rintro ⟨⟨room, hsent⟩, -⟩
    rw [hjoin.1] at hsent
    cases List.append_cancel_left hsent

/-! ### From the call to the answer -/

/-- The new actor of room `l` is to handle the request of `c` first. -/
def Requested (σ : Server) (l : LobbyRef) (c : Connection) (p : RoomParameters) : Prop :=
  (σ.rooms l).actor = .create ∧ ∃ rest, (σ.rooms l).mailbox = ⟨c, p.init⟩ :: rest

theorem Lives.requested (h : Lives σ) (hlive : (σ.clients c).stopped = false) :
    Requested (σ.step (.received c (some p.message))) σ.created c p := by
  have hreceive : ((σ.clients c).receive σ.depot σ.created (some p.message)).forward = some (σ.created, p.init) := by
    unfold Client.receive
    rw [hlive]
    rfl
  have hroom : (σ.step (.received c (some p.message))).rooms σ.created = Room.create.post ⟨c, p.init⟩ := by
    simp only [Server.step, Server.turn, hreceive, forward, Function.update_self, h.fresh _ (Nat.le_refl _)]
  unfold Requested
  rw [hroom]
  exact ⟨rfl, [], rfl⟩

theorem Requested.turn (h : Requested σ l c p) {c' : Connection} {o : ClientOutcome} :
    Requested (σ.turn c' o) l c p := by
  obtain ⟨hactor, rest, hmailbox⟩ := h
  obtain ⟨more, hmore⟩ := turn_mailbox (σ := σ) (c := c') (o := o) (l := l)
  exact ⟨turn_actor.trans hactor, rest ++ more, by rw [hmore, hmailbox, List.cons_append]⟩

theorem Requested.step (h : Requested σ l c p) {b : ServerAction} (hb : ∀ answer, b ≠ .handle l answer) :
    Requested (σ.step b) l c p := by
  cases b with
  | received c' raw => exact h.turn
  | closed c' => exact h.turn
  | handle l' answer =>
    have hl : l ≠ l' := fun heq => hb answer (by rw [heq])
    have hroom : (σ.step (.handle l' answer)).rooms l = σ.rooms l := handle_other hl
    unfold Requested
    rw [hroom]
    exact h

/-- The room that the actor describes in its answer has the limits in the width of an `Int`. -/
theorem Requested.answered (h : Requested σ l c p) {room : RoomInfo}
    (hsent : (σ.handle l answer).sent = σ.sent ++ [⟨c, .room room⟩]) :
    room.playersLimit = toInt p.playersLimit.toNat ∧
      (p.playersReserved.toNat < p.playersLimit.toNat → p.playersLimit.toNat < 2 ^ 31 →
        p.DescribedBy room ∧ Furnished (σ.handle l answer) l c p) := by
  obtain ⟨hactor, rest, hmailbox⟩ := h
  have hroom := handle_room hmailbox answer
  have hdepot := handle_depot hmailbox answer
  rw [handle_sent hmailbox, hactor] at hsent
  rw [hactor] at hroom hdepot
  obtain ⟨hlobby, hinfo, hstored⟩ := LobbyActor2.init_answered (List.append_cancel_left hsent)
  rw [hlobby] at hinfo
  refine ⟨?_, fun hless hlimit => ?_⟩
  · simp only [LobbyActor2.makeRoomInfo, LobbyActor2.getHost, List.head?_cons, Option.map_some,
      Option.some.injEq] at hinfo
    rw [← hinfo]
  have hfurnished : LobbyActor2.Furnished ⟨.running, false, p.roomName, p.description, [⟨c, p.playerName, false⟩],
      toInt p.playersLimit.toNat, toInt p.playersReserved.toNat, p.userParameter⟩ c p := by
    have hlimit' : toInt (p.playersLimit.toNat : Int) = p.playersLimit.toNat := toInt_of_range (by omega) (by omega)
    have hreserved' : toInt (p.playersReserved.toNat : Int) = p.playersReserved.toNat :=
      toInt_of_range (by omega) (by omega)
    have hplaces : 1 ≤ p.places := Nat.sub_pos_of_lt hless
    rw [hlimit', hreserved']
    exact ⟨rfl, rfl, rfl, rfl, rfl, ⟨[], rfl⟩, hplaces⟩
  have hdescribed := hfurnished.describedBy hinfo
  refine ⟨hdescribed, ?_, ?_, room, ?_, hdescribed⟩
  · rw [hroom, hlobby]
    exact ⟨rfl, rfl⟩
  · rw [hroom, hlobby]
    exact hfurnished
  · rw [hdepot]
    exact hstored

/-- A description whose limit is that of an `Int` does not arrive where the limit is none. -/
theorem limit_of_arrives {room : RoomInfo} (h : p.Arrives room)
    (hroom : room.playersLimit = toInt p.playersLimit.toNat) : p.playersLimit.toNat < 2 ^ 31 := by
  obtain ⟨-, hcarried⟩ := RoomParameters.arrives_iff.mp h
  have hlimit : room.playersLimit.toNat = p.playersLimit.toNat := hcarried.playersLimit
  rw [hroom] at hlimit
  have hrange := (toInt_range p.playersLimit.toNat).2
  omega

/-- A room whose creation is answered with a description is in every respect as it was asked for if and only if the
    limit is an `Int`. -/
theorem parameters_survive_iff {s s' : Lobby} {message : FrontendMessage} {room : RoomInfo} (ipBackend : String)
    (portBackend : Int) (as bs : List ServerAction) (hcall : s.call p.call = some (s', message)) :
    let σ := Machine.run step (start ipBackend portBackend) as
    let σ₁ := Machine.run step (σ.step (.received c (some message))) bs
    let σ₂ := σ₁.step (.handle σ.created answer)
    (σ.clients c).stopped = false → (∀ b ∈ bs, ∀ answer, b ≠ .handle σ.created answer) →
      σ₂.sent = σ₁.sent ++ [⟨c, .room room⟩] →
      (σ₂.Survives σ.created c p room ↔ p.playersLimit.toNat < 2 ^ 31) := by
  intro σ σ₁ σ₂ hlive hbs hsent
  obtain ⟨rfl, hless⟩ := RoomParameters.accepted hcall
  have hsound : Sound σ := Machine.run_keeps (fun _ b h => h.step b) (.start ipBackend portBackend) as
  have hrequested : Requested σ₁ σ.created c p :=
    Machine.run_invariant (P := fun τ => Requested τ σ.created c p) (fun _ _ h hb => h.step hb)
      (hsound.lives.requested hlive) (Machine.along_of_forall fun b hb _ => hbs b hb)
  have hnamed₂ : Registry σ₂ ∧ Named σ₂ := by
    have hrun : σ₂ = Machine.run step (start ipBackend portBackend)
        (as ++ (.received c (some p.message) :: bs ++ [.handle σ.created answer])) := by
      rw [Machine.run_append, List.cons_append, Machine.run_cons, Machine.run_append]
      rfl
    rw [hrun]
    exact registry_named ipBackend portBackend _
  obtain ⟨hlimit, hopened⟩ := hrequested.answered hsent
  constructor
  · rintro ⟨harrives, -⟩
    exact limit_of_arrives harrives hlimit
  · intro hrange
    obtain ⟨hdescribed, hfurnished⟩ := hopened hless hrange
    refine ⟨hdescribed.arrives, fun cs hcs => ?_⟩
    obtain ⟨⟨-, hnamed⟩, hkept⟩ := Machine.run_invariant
      (P := fun τ => (Registry τ ∧ Named τ) ∧ Furnished τ σ.created c p)
      (fun _ b h hb => ⟨⟨h.1.1.step b, h.1.2.step h.1.1 b⟩, h.2.step h.1.1 hless hrange hb⟩)
      ⟨hnamed₂, hfurnished⟩ hcs
    exact ⟨hkept.reports hnamed, hkept.admitsExactly hless hrange⟩

/-- Three players, with a place for a reserved one. -/
theorem parameters_survive_small :
    let p : RoomParameters := ⟨"a", "R", "d", 3, 1, "u"⟩
    let σ := (start "localhost" 8700).step (.received 0 (some p.message))
    (σ.step (.handle 0 none)).Survives 0 0 p ⟨"R", "a", "d", 3, 1, 1, some ["a"], "u"⟩ :=
  (parameters_survive_iff (s := .create) (p := ⟨"a", "R", "d", 3, 1, "u"⟩) (c := 0)
    "localhost" 8700 [] [] rfl rfl (List.forall_mem_nil _) (by decide +kernel)).mpr (by decide)

/-- A limit that the client lets through and the server takes for a negative number. -/
theorem limit_overflows :
    let p : RoomParameters := ⟨"a", "R", "", 2147483648, 0, ""⟩
    let room : RoomInfo := ⟨"R", "a", "", -2147483648, 0, 1, some ["a"], ""⟩
    let σ := (start "localhost" 8700).step (.received 0 (some p.message))
    let σ' := σ.step (.handle 0 none)
    (∃ s, Lobby.create.call p.call = some (s, p.message)) ∧ σ'.sent = σ.sent ++ [⟨0, .room room⟩] ∧
      ¬σ'.Survives 0 0 p room := by
  refine ⟨⟨_, rfl⟩, by decide +kernel, fun h => ?_⟩
  exact absurd (limit_of_arrives h.1 (by decide +kernel)) (by decide)

end Server

end MultiSlider
