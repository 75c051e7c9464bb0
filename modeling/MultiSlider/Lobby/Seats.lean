import MultiSlider.Lobby.Dispatch
import MultiSlider.Lobby.Lifecycle

/-! The seat of a connection in a room: how it gets one, and what the messages of others do to it. Its place at
    the head of the list changes only where the host leaves. -/

namespace MultiSlider

/-- The messages that bring their sender into a room or out of one. -/
def LobbyMessage.moves : LobbyMessage → Bool
  | .init .. | .join _ | .disconnected | .json (some .leaveRoom) => true
  | _ => false

/-- The message may change the room that its sender is in. -/
def FrontendMessage.moves : FrontendMessage → Bool
  | .createRoom .. | .joinRoom .. | .envelop _ (some .leaveRoom) => true
  | _ => false

/-- The request of a call under this name: an `Init` as the host, or else a `Join`. -/
def LobbyMessage.Requests (name : String) (isHost : Bool) : LobbyMessage → Prop
  | .init hostName .. => hostName = name ∧ isHost = true
  | .join playerName => playerName = name ∧ isHost = false
  | _ => False

/-- None of these messages brings `c` into a room or out of one. -/
def Still (c : Connection) (mails : List Mail) : Prop := ∀ mail ∈ mails, mail.sender = c → mail.message.moves = false

instance (c : Connection) (mails : List Mail) : Decidable (Still c mails) :=
  inferInstanceAs (Decidable (∀ mail ∈ mails, _ → _))

/-- What of these writes goes to `c`. -/
def newsTo (c : Connection) (writes : List Write) : List TcpPayload :=
  (writes.filter (·.receiver = c)).map (·.payload)

theorem mem_newsTo {c : Connection} {writes : List Write} {payload : TcpPayload} :
    payload ∈ newsTo c writes ↔ ⟨c, payload⟩ ∈ writes := by
  unfold newsTo
  rw [List.mem_map]
  constructor
  · rintro ⟨⟨receiver, payload'⟩, hwrite, rfl⟩
    obtain ⟨hmem, hreceiver⟩ := List.mem_filter.mp hwrite
    cases of_decide_eq_true hreceiver
    exact hmem
  · exact fun hmem => ⟨_, List.mem_filter.mpr ⟨hmem, decide_eq_true rfl⟩, rfl⟩

namespace LobbyActor2

variable {a b : LobbyActor2} {d : Depot} {sender c : Connection} {self : LobbyRef} {answer : Option Int}
  {m : LobbyMessage} {o : LobbyOutcome} {name : String} {isHost : Bool}

/-- No player of the room is on this connection. -/
def Lacks (a : LobbyActor2) (c : Connection) : Prop := ∀ player ∈ a.players, player.actor ≠ c

instance (a : LobbyActor2) (c : Connection) : Decidable (a.Lacks c) :=
  inferInstanceAs (Decidable (∀ player ∈ a.players, _))

/-- The connection has a player of this name in the room, who is the host or not. -/
structure Seats (a : LobbyActor2) (c : Connection) (name : String) (isHost : Bool) : Prop where
  listed : ⟨c, name, false⟩ ∈ a.players
  only : ∀ player ∈ a.players, player.actor = c → player = ⟨c, name, false⟩
  host : isHost = true ↔ a.getHost = some ⟨c, name, false⟩

/-- The player who becomes the host because the one before leaves. -/
def promoted (a : LobbyActor2) (sender : Connection) : LobbyMessage → Option PlayerInfo2
  | .disconnected =>
    match a.players with
    | host :: next :: _ => if host.actor = sender then some next else none
    | _ => none
  | _ => none

/-! ### The messages of others -/

theorem Seats.congr (h : a.Seats c name isHost) (hplayers : b.players = a.players) : b.Seats c name isHost := by
  obtain ⟨hlisted, honly, hhost⟩ := h
  unfold getHost at hhost
  rw [← hplayers] at hlisted honly hhost
  exact ⟨hlisted, honly, hhost⟩

/-- Somebody else goes, who is not the host. -/
theorem Seats.erase (h : a.Seats c name isHost) {player : PlayerInfo2} (hother : player.actor ≠ c)
    (hhost : a.getHost ≠ some player) : Seats { a with players := a.players.erase player } c name isHost where
  listed := (List.mem_erase_of_ne fun heq => hother (congrArg PlayerInfo2.actor heq).symm).mpr h.listed
  only other hmem := h.only other (List.mem_of_mem_erase hmem)
  host := by
    rw [h.host]
    unfold getHost at hhost ⊢
    cases hplayers : a.players with
    | nil => rfl
    | cons first rest =>
      rw [hplayers] at hhost
      have hne : first ≠ player := fun heq => hhost (congrArg some heq)
      rw [List.erase_cons_tail (by simpa using hne)]
      rfl

/-- The host goes, and the next player is the new one. -/
theorem Seats.migrate {host next : PlayerInfo2} {more : List PlayerInfo2} (h : a.Seats c name isHost)
    (hplayers : a.players = host :: next :: more) (hhost : host.actor ≠ c) (hnext : next.actor ≠ c) :
    Seats { a with players := next :: more } c name isHost := by
  obtain ⟨hlisted, honly, hhead⟩ := h
  unfold getHost at hhead
  rw [hplayers] at hlisted honly hhead
  refine ⟨(List.mem_cons.mp hlisted).resolve_left fun heq => hhost (heq ▸ rfl),
    fun player hplayer => honly player (List.mem_cons_of_mem _ hplayer), ?_⟩
  have hnone (player : PlayerInfo2) (hplayer : player.actor ≠ c) : some player ≠ some ⟨c, name, false⟩ :=
    fun heq => hplayer (congrArg PlayerInfo2.actor (Option.some.inj heq))
  rw [hhead]
  exact iff_of_false (hnone host hhost) (hnone next hnext)

/-- The player of another connection leaves. -/
theorem Seats.leave (h : a.Seats c name isHost) (hother : sender ≠ c) {player : PlayerInfo2}
    (hfind : a.players.find? (fun player => player.actor = sender) = some player)
    (hnext : ∀ next ∈ a.promoted sender .disconnected, next.actor ≠ c) :
    Seats { a with players := a.players.erase player } c name isHost := by
  have hown : player.actor = sender := by simpa using List.find?_some hfind
  have hnot : player.actor ≠ c := hown ▸ hother
  by_cases hhost : a.getHost = some player
  · unfold getHost at hhost
    cases hplayers : a.players with
    | nil =>
      rw [hplayers] at hhost
      cases hhost
    | cons first rest =>
      rw [hplayers] at hhost
      cases hhost
      rw [List.erase_cons_head]
      cases rest with
      | nil =>
        have hlisted := h.listed
        rw [hplayers] at hlisted
        exact absurd (congrArg PlayerInfo2.actor (List.mem_singleton.mp hlisted)).symm hnot
      | cons next more =>
        refine h.migrate hplayers hnot (hnext next ?_)
        unfold promoted
        rw [hplayers]
        exact if_pos hown
  · exact h.erase hnot hhost

/-- What others, or the connection without moving, make of its seat: it is ejected, or keeps the seat. -/
theorem Handled.seats (h : Handled a d sender m o) (hlive : a.stopped = false) (hseat : a.Seats c name isHost)
    (hstill : sender = c → m.moves = false) (hnext : ∀ next ∈ a.promoted sender m, next.actor ≠ c) :
    (∃ flags, ⟨c, .json (.ejected flags)⟩ ∈ o.writes) ∨
      (o.lobby.stopped = false ∧ o.lobby.name = a.name ∧ o.lobby.Seats c name isHost) := by
  cases h with
  | @joined playerName b room admits next info =>
    subst next
    refine Or.inr ⟨hlive, rfl, List.mem_append_left _ hseat.listed, fun player hplayer hactor => ?_, ?_⟩
    · rcases List.mem_append.mp hplayer with hplayer | hplayer
      · exact hseat.only player hplayer hactor
      · rw [List.mem_singleton.mp hplayer] at hactor
        exact nomatch hstill hactor
    · unfold getHost
      rw [List.head?_append_of_ne_nil _ (List.ne_nil_of_mem hseat.listed)]
      exact hseat.host
  | @left player b room found next info =>
    subst next
    exact Or.inr ⟨hlive, rfl, hseat.leave (fun hsender => nomatch hstill hsender) found hnext⟩
  | @emptied player own last =>
    have hlisted := hseat.listed
    rw [last] at hlisted
    -- The last player leaves by a message of its own.
    have hactor := congrArg PlayerInfo2.actor (List.mem_singleton.mp hlisted)
    exact nomatch hstill (own.symm.trans hactor.symm)
  | closed =>
    have hejected := List.mem_map_of_mem (f := (ejectPlayer · (flagEjected ||| flagClosedByHost))) hseat.listed
    exact Or.inl ⟨_, hejected⟩
  | @ejected playerName host player b room head byHost other found next info =>
    have hnamed : player.name = playerName := by simpa using List.find?_some found
    subst next
    -- The ejected player has the seat, or it is another one, and the host stays the host.
    by_cases hactor : player.actor = c
    · left
      refine ⟨flagEjected, ?_⟩
      rw [← hactor]
      exact List.mem_singleton_self _
    · refine Or.inr ⟨hlive, rfl, hseat.erase hactor fun hhost => other ?_⟩
      rw [Option.some.inj (head.symm.trans hhost), hnamed]
  | reconfigured head byHost next info =>
    subst next
    exact Or.inr ⟨hlive, rfl, hseat.congr rfl⟩
  | _ => exact Or.inr ⟨hlive, rfl, hseat⟩

/-- All that is written of the room has its name. -/
theorem Handled.told_name (h : Handled a d sender m o) {w : Write} (hw : w ∈ o.writes) {info : RoomInfo}
    (hinfo : w.payload.roomInfo = some info) : info.name = a.name := by
  cases h with
  | joined admits next room =>
    subst next
    rw [List.mem_singleton.mp hw] at hinfo
    cases hinfo
    have hname := makeRoomInfo_name room
    exact hname
  | told room =>
    obtain ⟨player, -, rfl⟩ := List.mem_map.mp hw
    cases hinfo
    exact makeRoomInfo_name room
  | reconfigured head byHost next room =>
    subst next
    obtain ⟨player, -, rfl⟩ := List.mem_map.mp hw
    cases hinfo
    have hname := makeRoomInfo_name room
    exact hname
  | spoken stays plain => exact nomatch hinfo.symm.trans (plain w hw)
  | refused => cases (plain_of_text w hw).symm.trans hinfo
  | closed =>
    obtain ⟨player, -, rfl⟩ := List.mem_map.mp hw
    cases hinfo
  | ejected head byHost other found next info =>
    rw [List.mem_singleton.mp hw] at hinfo
    cases hinfo
  | _ => cases hw

/-- Who is not in the room stays out of it without moving, and is told nothing of it. -/
theorem Handled.lacks (h : Handled a d sender m o) (hout : a.Lacks c) (hstill : sender = c → m.moves = false) :
    o.lobby.Lacks c ∧ ∀ w ∈ o.writes, w.receiver = c → w.payload.roomInfo = none := by
  -- Who writes to the players of the room does not write to others.
  have htold {players : List PlayerInfo2} {payload : TcpPayload} (hsub : ∀ player ∈ players, player ∈ a.players)
      (w : Write) (hw : w ∈ players.map fun player => ⟨player.actor, payload⟩) (hc : w.receiver = c) :
      w.payload.roomInfo = none := by
    obtain ⟨player, hplayer, rfl⟩ := List.mem_map.mp hw
    exact absurd hc (hout player (hsub player hplayer))
  cases h with
  | joined admits next info =>
    subst next
    have hother : sender ≠ c := fun hsender => nomatch hstill hsender
    refine ⟨fun player hplayer => ?_, fun w hw hc => ?_⟩
    · rcases List.mem_append.mp hplayer with hplayer | hplayer
      · exact hout player hplayer
      · rw [List.mem_singleton.mp hplayer]
        exact hother
    · rw [List.mem_singleton.mp hw] at hc
      exact absurd hc hother
  | refused => exact ⟨hout, fun w hw _ => plain_of_text w hw⟩
  | left found next info =>
    subst next
    exact ⟨fun player hplayer => hout player (List.mem_of_mem_erase hplayer), List.forall_mem_nil _⟩
  | emptied own last => exact ⟨List.forall_mem_nil _, List.forall_mem_nil _⟩
  | closed => exact ⟨hout, htold fun _ => id⟩
  | told info => exact ⟨hout, htold fun player hplayer => (List.mem_filter.mp hplayer).1⟩
  | spoken stays plain => exact ⟨hout, fun w hw _ => plain w hw⟩
  | ejected head byHost other found next info =>
    subst next
    refine ⟨fun player hplayer => hout player (List.mem_of_mem_erase hplayer), fun w hw _ => ?_⟩
    rw [List.mem_singleton.mp hw]
    rfl
  | reconfigured head byHost next info =>
    subst next
    exact ⟨hout, htold fun _ => id⟩
  | _ => exact ⟨hout, List.forall_mem_nil _⟩

/-- What becomes of its own `Join`: the connection has the last seat, or nothing has changed. -/
theorem Handled.join_seats (h : Handled a d c (.join name) o) (hlive : a.stopped = false) (hplayers : a.players ≠ [])
    (hout : a.Lacks c) :
    (o.lobby = a ∧ ∀ w ∈ o.writes, w.payload.roomInfo = none) ∨
      (o.lobby.stopped = false ∧ o.lobby.Seats c name false ∧
        ∃ info, o.writes = [⟨c, .room info⟩] ∧ info.name = o.lobby.name) := by
  cases h with
  | refused => exact Or.inl ⟨rfl, plain_of_text⟩
  | joined admits next info =>
    subst next
    refine Or.inr ⟨hlive, ⟨List.mem_append_right _ (List.mem_singleton_self _), fun player hplayer hactor => ?_, ?_⟩,
      _, rfl, makeRoomInfo_name info⟩
    · rcases List.mem_append.mp hplayer with hplayer | hplayer
      · exact absurd hactor (hout player hplayer)
      · exact List.mem_singleton.mp hplayer
    · refine iff_of_false nofun fun hhead => ?_
      unfold getHost at hhead
      rw [List.head?_append_of_ne_nil _ hplayers] at hhead
      exact hout _ (List.mem_of_mem_head? (Option.mem_def.mpr hhead)) rfl

variable (d self) in
/-- What becomes of its own `Init`: the connection has the only seat, or there is no room. -/
theorem init_seats (hplayers : a.players = []) (name roomName description : String) (playersLimit playersReserved : Int)
    (userParam : String) :
    let o := a.init d c self name roomName description playersLimit playersReserved userParam
    (o.lobby.behaviour ≠ .running ∧ ∀ w ∈ o.writes, w.payload.roomInfo = none) ∨
      ((o.lobby.behaviour = .running ∧ o.lobby.stopped = a.stopped) ∧ o.lobby.Seats c name true ∧
        ∃ info, o.writes = [⟨c, .room info⟩] ∧ info.name = o.lobby.name) := by
  unfold init
  rw [hplayers]
  dsimp only
  split
  · rename_i room hroom
    split
    · refine Or.inr ⟨⟨rfl, rfl⟩,
        ⟨List.mem_singleton_self _, fun player hplayer _ => List.mem_singleton.mp hplayer, ?_⟩, room, rfl,
        makeRoomInfo_name hroom⟩
      exact iff_of_true rfl rfl
    · exact Or.inl ⟨nofun, plain_of_text⟩
    · exact Or.inl ⟨nofun, plain_of_text⟩
  · rename_i hnone
    simp [makeRoomInfo_eq_none] at hnone

/-! ### Whatever the actor receives -/

variable (d sender self answer) in
theorem receive_running (h : a.behaviour = .running) (m : LobbyMessage) :
    Handled a d sender m (a.receive d sender self answer m) := by
  unfold receive
  rw [h]
  exact running_handled answer m

/-- An actor that does not run has nothing to tell but to the sender of an `Init`. -/
theorem receive_of_closed (h : a.behaviour ≠ .running) (hother : sender = c → m.isInit = false) :
    ∀ w ∈ (a.receive d sender self answer m).writes, w.receiver ≠ c := by
  unfold receive
  cases hbehaviour : a.behaviour with
  | initial =>
    cases m with
    | init hostName roomName description playersLimit playersReserved userParam =>
      obtain ⟨payload, hwrites, -⟩ := init_response a d sender self hostName roomName
        description playersLimit playersReserved userParam
      intro w hw hc
      dsimp only at hw
      rw [hwrites] at hw
      rw [List.mem_singleton.mp hw] at hc
      exact nomatch hother hc
    | _ => exact List.forall_mem_nil _
  | running => exact absurd hbehaviour h
  | zombie => cases m <;> exact List.forall_mem_nil _

/-- Only a `LeaveRoom` is forwarded as what moves its sender. -/
theorem receive_forwards_still (h : m ≠ .json (some .leaveRoom)) :
    ∀ message ∈ (a.receive d sender self answer m).forwards, message.moves = false := by
  rcases receive_cases a d sender self answer m with ⟨-, hhandled⟩ | ⟨-, -, hopened⟩ | ⟨-, -, hforwards, -⟩
  · generalize a.receive d sender self answer m = o at hhandled
    cases hhandled with
    | leaving => exact absurd rfl h
    | joined _ _ _ => exact List.forall_mem_singleton.mpr rfl
    | left _ _ _ => exact List.forall_mem_singleton.mpr rfl
    | ejected _ _ _ _ _ _ => exact List.forall_mem_singleton.mpr rfl
    | forwarded => exact List.forall_mem_singleton.mpr rfl
    | _ => exact List.forall_mem_nil _
  · rw [hopened.forwards]
    exact List.forall_mem_nil _
  · rw [hforwards]
    exact List.forall_mem_nil _

variable (d self answer) in
/-- Who is not in the room stays out of it without moving. -/
theorem receive_lacks (hvacant : a.behaviour = .initial → a.players = []) (hout : a.behaviour = .running → a.Lacks c)
    (hstill : sender = c → m.moves = false) : let o := a.receive d sender self answer m
    (o.lobby.behaviour = .running → o.lobby.Lacks c) ∧ ∀ w ∈ o.writes, w.receiver = c → w.payload.roomInfo = none := by
  have hinit (hsender : sender = c) : m.isInit = false := by
    have hmoves := hstill hsender
    cases m with
    | init => cases hmoves
    | _ => rfl
  rcases receive_cases a d sender self answer m with
    ⟨hrunning, hhandled⟩ | ⟨hinitial, ⟨_, _, _, _, _, _, rfl⟩, hopened⟩ | ⟨hnot, -, -, hlobby⟩
  · obtain ⟨hlacks, hplain⟩ := hhandled.lacks (hout hrunning) hstill
    exact ⟨fun _ => hlacks, hplain⟩
  · refine ⟨fun _ player hplayer hactor => ?_, fun w hw hc => ?_⟩
    · obtain ⟨hostName, hplayers⟩ := hopened.players
      rw [hplayers, hvacant hinitial] at hplayer
      rw [List.mem_singleton.mp hplayer] at hactor
      exact nomatch hinit hactor
    · exact absurd hc (receive_of_closed (by rw [hinitial]; nofun) hinit w hw)
  · refine ⟨fun hrunning => ?_, fun w hw hc => absurd hc (receive_of_closed hnot hinit w hw)⟩
    rcases hlobby with ⟨-, hlobby⟩ | hzombie
    · rw [hlobby] at hrunning
      exact absurd hrunning hnot
    · cases hzombie.symm.trans hrunning

variable (d self answer) in
/-- What becomes of a request when its turn comes: the connection has a seat and hears of it, or it has none. -/
theorem receive_request (hvacant : a.behaviour = .initial → a.players = []) (hlive : a.stopped = false)
    (hplayers : a.behaviour = .running → a.players ≠ []) (hout : a.behaviour = .running → a.Lacks c)
    (hrequest : m.Requests name isHost) : let o := a.receive d c self answer m
    ((o.lobby.behaviour = .running → o.lobby.Lacks c) ∧ ∀ w ∈ o.writes, w.payload.roomInfo = none) ∨
      ((o.lobby.behaviour = .running ∧ o.lobby.stopped = false) ∧ o.lobby.Seats c name isHost ∧
        ∃ info, o.writes = [⟨c, .room info⟩] ∧ info.name = o.lobby.name) := by
  cases hbehaviour : a.behaviour with
  | running =>
    have hhandled := receive_running d c self answer hbehaviour m
    have hrunning := hhandled.behaviour.trans hbehaviour
    generalize a.receive d c self answer m = o at hhandled hrunning
    cases m with
    | init =>
      cases hhandled
      exact Or.inl ⟨hout, List.forall_mem_nil _⟩
    | join playerName =>
      obtain ⟨rfl, rfl⟩ := hrequest
      rcases hhandled.join_seats hlive (hplayers hbehaviour) (hout hbehaviour) with
        ⟨hlobby, hplain⟩ | ⟨hstopped, hseats, hroom⟩
      · dsimp only
        rw [hlobby]
        exact Or.inl ⟨hout, hplain⟩
      · exact Or.inr ⟨⟨hrunning, hstopped⟩, hseats, hroom⟩
    | _ => exact hrequest.elim
  | initial =>
    unfold receive
    rw [hbehaviour]
    cases m with
    | init hostName roomName description playersLimit playersReserved userParam =>
      obtain ⟨rfl, rfl⟩ := hrequest
      rcases init_seats d self (a := a) (c := c) (hvacant hbehaviour) hostName roomName
        description playersLimit playersReserved userParam with ⟨hnot, hplain⟩ | ⟨⟨hrunning, hstopped⟩, hseats, hroom⟩
      · exact Or.inl ⟨fun hrunning => absurd hrunning hnot, hplain⟩
      · exact Or.inr ⟨⟨hrunning, hstopped.trans hlive⟩, hseats, hroom⟩
    | join playerName => exact Or.inl ⟨hout, List.forall_mem_nil _⟩
    | _ => exact hrequest.elim
  | zombie =>
    unfold receive
    rw [hbehaviour]
    cases m with
    | init => exact Or.inl ⟨hout, List.forall_mem_nil _⟩
    | join playerName => exact Or.inl ⟨hout, List.forall_mem_nil _⟩
    | _ => exact hrequest.elim

end LobbyActor2

namespace Client

variable {client : Client} {d : Depot} {created : LobbyRef} {raw : Option FrontendMessage}

/-- The client's actor has only plain answers of its own. -/
theorem receive_texts : ∀ payload ∈ (client.receive d created raw).writes, payload.roomInfo = none := by
  cases hstopped : client.stopped with
  | true =>
    rw [receive_of_stopped hstopped]
    exact List.forall_mem_nil _
  | false =>
    have hhandled := receive_handled d created hstopped raw
    generalize client.receive d created raw = o at hhandled
    cases hhandled with
    | missing _ => exact List.forall_mem_singleton.mpr rfl
    | unreadable => exact List.forall_mem_singleton.mpr rfl
    | _ => exact List.forall_mem_nil _

/-- What does not move the client is forwarded as what does not. -/
theorem receive_still (h : ∀ message ∈ raw, message.moves = false) :
    ∀ l message, (client.receive d created raw).forward = some (l, message) → message.moves = false := by
  cases hstopped : client.stopped with
  | true =>
    rw [receive_of_stopped hstopped]
    exact fun _ _ hforward => nomatch hforward
  | false =>
    have hhandled := receive_handled d created hstopped raw
    generalize client.receive d created raw = o at hhandled
    cases hhandled with
    | creates => cases h _ rfl
    | joins _ => cases h _ rfl
    | @passes roomName data lobby found =>
      intro l message hforward
      cases hforward
      have hmoves := h _ rfl
      cases data with
      | none => rfl
      | some message =>
        cases message with
        | leaveRoom => cases hmoves
        | _ => rfl
    | closes _ =>
      intro l message hforward
      cases hforward
      rfl
    | _ => exact fun _ _ hforward => nomatch hforward

end Client

namespace Server

/-- Nothing that is still to be handled brings the connection into a room or out of one. -/
def Quiet (σ : Server) (c : Connection) : Prop := ∀ l, Still c (σ.rooms l).mailbox

/-- The connection is in no room. -/
def Out (σ : Server) (c : Connection) : Prop := ∀ l, (σ.rooms l).Open → (σ.rooms l).actor.Lacks c

/-- The connection has one seat, which is in room `l`. -/
structure Seated (σ : Server) (c : Connection) (l : LobbyRef) (name : String) (isHost : Bool) : Prop where
  live : (σ.rooms l).Open
  seats : (σ.rooms l).actor.Seats c name isHost
  elsewhere : ∀ l' ≠ l, (σ.rooms l').Open → (σ.rooms l').actor.Lacks c

/-- Of what brings the connection into a room or out of one, only a request to room `l` is still to be handled. -/
structure Mailed (σ : Server) (c : Connection) (l : LobbyRef) (name : String) (isHost : Bool) : Prop where
  request : ∃ before message after, (σ.rooms l).mailbox = before ++ ⟨c, message⟩ :: after ∧
    message.Requests name isHost ∧ Still c before ∧ Still c after
  elsewhere : ∀ l' ≠ l, Still c (σ.rooms l').mailbox

/-- The registry and the actors are in order, and a new actor has no players. -/
structure Sound (σ : Server) : Prop where
  registry : Registry σ
  lives : Lives σ
  vacant : ∀ l, (σ.rooms l).actor.behaviour = .initial → (σ.rooms l).actor.players = []

/-- The action is not the connection's own, or it does not move it. -/
def Spares (c : Connection) : ServerAction → Prop
  | .received c' raw => c' = c → ∀ message ∈ raw, message.moves = false
  | .closed c' => c' ≠ c
  | .handle .. => True

/-- The connection whose player becomes the host because the one before leaves. -/
def promoted (σ : Server) : ServerAction → Option Connection
  | .handle l _ =>
    match (σ.rooms l).mailbox with
    | mail :: _ =>
      if (σ.rooms l).Open then ((σ.rooms l).actor.promoted mail.sender mail.message).map (·.actor) else none
    | [] => none
  | _ => none

variable {σ : Server} {c c' : Connection} {b : ServerAction} {l l' : LobbyRef} {answer : Option Int} {name : String}
  {isHost : Bool} {o : ClientOutcome}

theorem Sound.start (ipBackend : String) (portBackend : Int) : Sound (start ipBackend portBackend) :=
  ⟨.start ipBackend portBackend, .start ipBackend portBackend, fun _ _ => rfl⟩

theorem Sound.step (h : Sound σ) (b : ServerAction) : Sound (σ.step b) where
  registry := h.registry.step b
  lives := h.lives.step h.registry b
  vacant l hinitial := by
    cases b with
    | received c raw =>
      simp only [Server.step, turn_actor] at hinitial ⊢
      exact h.vacant l hinitial
    | closed c =>
      simp only [Server.step, turn_actor] at hinitial ⊢
      exact h.vacant l hinitial
    | handle l' answer =>
      cases hmailbox : (σ.rooms l').mailbox with
      | nil =>
        rw [Server.step, handle_idle hmailbox] at hinitial ⊢
        exact h.vacant l hinitial
      | cons mail rest =>
        refine forall_handle (P := fun _ r => r.actor.behaviour = .initial → r.actor.players = []) ?_
          (fun l _ => h.vacant l) l hinitial
        rw [handle_room hmailbox]
        rcases LobbyActor2.receive_cases (σ.rooms l').actor σ.depot mail.sender l' answer mail.message with
          ⟨hrunning, hhandled⟩ | ⟨-, -, hopened⟩ | ⟨-, -, -, ⟨-, hlobby⟩ | hzombie⟩
        · intro hinitial
          cases hrunning.symm.trans (hhandled.behaviour.symm.trans hinitial)
        · intro hinitial
          cases hopened.running.symm.trans hinitial
        · dsimp only
          rw [hlobby]
          exact h.vacant l'
        · intro hinitial
          cases hzombie.symm.trans hinitial

/-! ### Mailboxes -/

theorem still_append {mails more : List Mail} : Still c (mails ++ more) ↔ Still c mails ∧ Still c more := by
  unfold Still
  simp only [List.mem_append, or_imp, forall_and]

theorem still_cons {mail : Mail} {mails : List Mail} :
    Still c (mail :: mails) ↔ (mail.sender = c → mail.message.moves = false) ∧ Still c mails := by
  unfold Still
  simp only [List.mem_cons, forall_eq_or_imp]

/-- What a connection forwards does not move another one. -/
theorem turn_still (hforward : c' = c → ∀ l message, o.forward = some (l, message) → message.moves = false)
    (l : LobbyRef) : ∃ more, ((σ.turn c' o).rooms l).mailbox = (σ.rooms l).mailbox ++ more ∧ Still c more := by
  rcases turn_room (σ := σ) (c := c') (o := o) (l := l) with hroom | ⟨message, hmessage, hroom⟩
  · exact ⟨[], by rw [hroom, List.append_nil], List.forall_mem_nil _⟩
  · rw [hroom]
    rcases Room.post_mailbox (σ.rooms l) ⟨c', message⟩ with hmailbox | hmailbox
    · exact ⟨[], by rw [hmailbox, List.append_nil], List.forall_mem_nil _⟩
    · refine ⟨_, hmailbox, fun mail hmail hsender => ?_⟩
      rw [List.mem_singleton.mp hmail] at hsender ⊢
      exact hforward hsender l message hmessage

variable (answer) in
/-- The mailbox behind the message that is handled. -/
theorem handle_mailbox {mail : Mail} {rest : List Mail} (hmailbox : (σ.rooms l).mailbox = mail :: rest)
    (hstill : mail.sender = c → mail.message ≠ .json (some .leaveRoom)) :
    ((σ.handle l answer).rooms l).mailbox = [] ∨
      ∃ more, ((σ.handle l answer).rooms l).mailbox = rest ++ more ∧ Still c more := by
  rw [handle_room hmailbox]
  dsimp only
  split
  · exact Or.inl rfl
  · refine Or.inr ⟨_, rfl, fun mail' hmail' hsender => ?_⟩
    obtain ⟨message, hmessage, rfl⟩ := List.mem_map.mp hmail'
    exact LobbyActor2.receive_forwards_still (hstill hsender) message hmessage

theorem not_leaving {m : LobbyMessage} (h : m.moves = false) : m ≠ .json (some .leaveRoom) := by
  rintro rfl
  cases h

theorem still_handle (h : Still c (σ.rooms l).mailbox) : Still c ((σ.handle l answer).rooms l).mailbox := by
  cases hmailbox : (σ.rooms l).mailbox with
  | nil =>
    rw [handle_idle hmailbox]
    exact h
  | cons mail rest =>
    rw [hmailbox, still_cons] at h
    rcases handle_mailbox answer hmailbox fun hsender => not_leaving (h.1 hsender) with
      hnil | ⟨more, hmore, hstill⟩
    · rw [hnil]
      exact List.forall_mem_nil _
    · rw [hmore]
      exact still_append.mpr ⟨h.2, hstill⟩

/-! ### One action -/

theorem writes_handle {mail : Mail} {rest : List Mail} (hmailbox : (σ.rooms l).mailbox = mail :: rest) :
    σ.writes (.handle l answer) =
      ((σ.rooms l).actor.receive σ.depot mail.sender l answer mail.message).writes := by
  simp only [writes, Room.handle, hmailbox]

theorem writes_idle (hmailbox : (σ.rooms l).mailbox = []) : σ.writes (.handle l answer) = [] := by
  simp only [writes, Room.handle, hmailbox]

/-- An action that spares a connection is a lobby actor's, or forwards nothing that moves it and tells it of no room. -/
theorem step_turn (h : Spares c b) : (∃ l answer, b = .handle l answer) ∨ ∃ c' o, σ.step b = σ.turn c' o ∧
    (∀ payload ∈ newsTo c (σ.writes b), payload.roomInfo = none) ∧
    (c' = c → ∀ l message, o.forward = some (l, message) → message.moves = false) := by
  cases b with
  | received c' raw =>
    refine Or.inr ⟨c', _, rfl, fun payload hpayload => ?_, fun hc => Client.receive_still (h hc)⟩
    obtain ⟨payload', hpayload', heq⟩ := List.mem_map.mp (mem_newsTo.mp hpayload)
    cases heq
    exact Client.receive_texts _ hpayload'
  | closed c' =>
    refine Or.inr ⟨c', _, rfl, fun payload hpayload => ?_, fun hc => absurd hc h⟩
    have hnone : ((σ.clients c').shutdown σ.created).writes = [] := by
      unfold Client.shutdown
      split <;> rfl
    have hmem := mem_newsTo.mp hpayload
    simp only [writes, hnone] at hmem
    cases hmem
  | handle l answer => exact Or.inl ⟨l, answer, rfl⟩

theorem Quiet.step (h : Quiet σ c) (hspares : Spares c b) : Quiet (σ.step b) c := by
  rcases step_turn (σ := σ) hspares with ⟨l, answer, rfl⟩ | ⟨c', o, hstep, -, hforward⟩
  · exact forall_handle (P := fun _ r => Still c r.mailbox) (still_handle (h l)) fun l' _ => h l'
  · intro l
    obtain ⟨more, hmailbox, hmore⟩ := turn_still (σ := σ) hforward l
    rw [hstep, hmailbox]
    exact still_append.mpr ⟨h l, hmore⟩

variable (answer) in
/-- A room keeps its players apart from the connection, if the message handled does not move it. -/
theorem Sound.handle_lacks (hsound : Sound σ) (hout : (σ.rooms l).Open → (σ.rooms l).actor.Lacks c)
    (hhead : ∀ mail ∈ (σ.rooms l).mailbox.head?, mail.sender = c → mail.message.moves = false) :
    (((σ.handle l answer).rooms l).Open → ((σ.handle l answer).rooms l).actor.Lacks c) ∧
      ∀ payload ∈ newsTo c (σ.writes (.handle l answer)), payload.roomInfo = none := by
  cases hmailbox : (σ.rooms l).mailbox with
  | nil =>
    rw [handle_idle hmailbox, writes_idle hmailbox]
    exact ⟨hout, List.forall_mem_nil _⟩
  | cons mail rest =>
    rw [hmailbox] at hhead
    have hlive := hsound.registry.live hmailbox
    obtain ⟨hlacks, hplain⟩ := LobbyActor2.receive_lacks σ.depot l answer
      (hsound.vacant l) (fun hrunning => hout ⟨hrunning, hlive⟩) (hhead mail rfl)
    rw [handle_room hmailbox, writes_handle hmailbox]
    exact ⟨fun hopen => hlacks hopen.1, fun payload hpayload => hplain _ (mem_newsTo.mp hpayload) rfl⟩

variable (answer) in
theorem Out.handle (h : Out σ c) (hsound : Sound σ)
    (hhead : ∀ mail ∈ (σ.rooms l).mailbox.head?, mail.sender = c → mail.message.moves = false) :
    Out (σ.handle l answer) c ∧ ∀ payload ∈ newsTo c (σ.writes (.handle l answer)), payload.roomInfo = none := by
  obtain ⟨hlacks, hplain⟩ := hsound.handle_lacks answer (h l) hhead
  exact ⟨forall_handle (P := fun _ r => r.Open → r.actor.Lacks c) hlacks fun l' _ => h l', hplain⟩

theorem Out.turn (h : Out σ c) : Out (σ.turn c' o) c := by
  intro l hopen
  rw [turn_actor]
  exact h l (turn_open.mp hopen)

theorem Quiet.head (h : Quiet σ c) (l : LobbyRef) :
    ∀ mail ∈ (σ.rooms l).mailbox.head?, mail.sender = c → mail.message.moves = false :=
  fun mail hmail => h l mail (List.mem_of_mem_head? hmail)

/-- A connection that is in no room stays in none while nothing moves it. -/
theorem Out.step (h : Out σ c) (hsound : Sound σ) (hquiet : Quiet σ c) (hspares : Spares c b) :
    Out (σ.step b) c ∧ ∀ payload ∈ newsTo c (σ.writes b), payload.roomInfo = none := by
  rcases step_turn (σ := σ) hspares with ⟨l, answer, rfl⟩ | ⟨c', o, hstep, hplain, -⟩
  · exact h.handle answer hsound (hquiet.head l)
  · rw [hstep]
    exact ⟨h.turn, hplain⟩

/-- What a message handled in its room makes of the seat. -/
theorem Seated.handle (h : Seated σ c l name isHost) (hquiet : Quiet σ c)
    (hpromoted : σ.promoted (.handle l answer) ≠ some c) :
    (∃ flags, .json (.ejected flags) ∈ newsTo c (σ.writes (.handle l answer))) ∨
      (Seated (σ.handle l answer) c l name isHost ∧
        ((σ.handle l answer).rooms l).actor.name = (σ.rooms l).actor.name ∧
        ∀ payload ∈ newsTo c (σ.writes (.handle l answer)), ∀ info ∈ payload.roomInfo,
          info.name = (σ.rooms l).actor.name) := by
  cases hmailbox : (σ.rooms l).mailbox with
  | nil =>
    rw [handle_idle hmailbox, writes_idle hmailbox]
    exact Or.inr ⟨h, rfl, List.forall_mem_nil _⟩
  | cons mail rest =>
    -- Nothing that is first in the mailbox moves the connection.
    have hstill := hquiet.head l mail (by rw [hmailbox]; rfl)
    have hhandled := LobbyActor2.receive_running σ.depot mail.sender l answer
      h.live.1 mail.message
    have hnext : ∀ next ∈ (σ.rooms l).actor.promoted mail.sender mail.message, next.actor ≠ c := by
      intro next hnext hactor
      refine hpromoted ?_
      simp only [promoted, hmailbox, if_pos h.live, Option.mem_def.mp hnext, Option.map_some, hactor]
    rcases hhandled.seats h.live.2 h.seats hstill hnext with ⟨flags, hejected⟩ | ⟨hlive, hname, hseats⟩
    · left
      rw [writes_handle hmailbox]
      exact ⟨flags, mem_newsTo.mpr hejected⟩
    · have hroom := handle_room hmailbox answer
      refine Or.inr ⟨⟨?_, ?_, fun l' hl' => ?_⟩, ?_, fun payload hpayload info hinfo => ?_⟩
      · rw [hroom]
        exact ⟨hhandled.behaviour.trans h.live.1, hlive⟩
      · rw [hroom]
        exact hseats
      · rw [handle_other hl']
        exact h.elsewhere l' hl'
      · rw [hroom]
        exact hname
      · rw [writes_handle hmailbox] at hpayload
        exact hhandled.told_name (mem_newsTo.mp hpayload) hinfo

/-- A connection with a seat keeps it while nothing moves it, or it is ejected. -/
theorem Seated.step (h : Seated σ c l name isHost) (hsound : Sound σ) (hquiet : Quiet σ c) (hspares : Spares c b)
    (hpromoted : σ.promoted b ≠ some c) :
    (∃ flags, .json (.ejected flags) ∈ newsTo c (σ.writes b)) ∨
      (Seated (σ.step b) c l name isHost ∧ ((σ.step b).rooms l).actor.name = (σ.rooms l).actor.name ∧
        ∀ payload ∈ newsTo c (σ.writes b), ∀ info ∈ payload.roomInfo, info.name = (σ.rooms l).actor.name) := by
  rcases step_turn (σ := σ) hspares with ⟨l', answer, rfl⟩ | ⟨c', o, hstep, hplain, -⟩
  · by_cases hl : l' = l
    · subst hl
      exact h.handle hquiet hpromoted
    · obtain ⟨hlacks, hplain⟩ := hsound.handle_lacks answer (h.elsewhere l' hl) (hquiet.head l')
      have hroom : (σ.step (.handle l' answer)).rooms l = σ.rooms l := handle_other (Ne.symm hl)
      refine Or.inr ⟨⟨?_, ?_, fun l'' hl'' => ?_⟩, ?_, fun payload hpayload info hinfo => ?_⟩
      · rw [hroom]
        exact h.live
      · rw [hroom]
        exact h.seats
      · by_cases heq : l'' = l'
        · rw [heq]
          exact hlacks
        · rw [Server.step, handle_other heq]
          exact h.elsewhere l'' hl''
      · rw [hroom]
      · cases hinfo.symm.trans (hplain payload hpayload)
  · refine Or.inr ?_
    rw [hstep, turn_actor]
    refine ⟨⟨turn_open.mpr h.live, ?_, fun l' hl' hopen => ?_⟩, rfl, fun payload hpayload info hinfo => ?_⟩
    · rw [turn_actor]
      exact h.seats
    · rw [turn_actor]
      exact h.elsewhere l' hl' (turn_open.mp hopen)
    · cases hinfo.symm.trans (hplain payload hpayload)

theorem newsTo_own (payload : TcpPayload) : newsTo c [⟨c, payload⟩] = [payload] := by
  simp [newsTo]

theorem not_leaving_of_requests {m : LobbyMessage} (h : m.Requests name isHost) : m ≠ .json (some .leaveRoom) := by
  rintro rfl
  exact h

/-- The request is handled, and then there is none. -/
theorem Mailed.handled {message : LobbyMessage} {rest : List Mail} (hsound : Sound σ) (hout : Out σ c)
    (hmailbox : (σ.rooms l).mailbox = ⟨c, message⟩ :: rest) (hrequest : message.Requests name isHost)
    (hrest : Still c rest) (helsewhere : ∀ l' ≠ l, Still c (σ.rooms l').mailbox) :
    Quiet (σ.handle l answer) c ∧
      ((Out (σ.handle l answer) c ∧ ∀ payload ∈ newsTo c (σ.writes (.handle l answer)), payload.roomInfo = none) ∨
        (Seated (σ.handle l answer) c l name isHost ∧ ∃ info,
          newsTo c (σ.writes (.handle l answer)) = [.room info] ∧
            info.name = ((σ.handle l answer).rooms l).actor.name)) := by
  have hlive := hsound.registry.live hmailbox
  have hroom := handle_room hmailbox answer
  refine ⟨forall_handle (P := fun _ r => Still c r.mailbox) ?_ helsewhere, ?_⟩
  · rcases handle_mailbox answer hmailbox fun _ => not_leaving_of_requests hrequest with
      hnil | ⟨more, hmore, hstill⟩
    · rw [hnil]
      exact List.forall_mem_nil _
    · rw [hmore]
      exact still_append.mpr ⟨hrest, hstill⟩
  · rw [writes_handle hmailbox, hroom]
    dsimp only
    rcases LobbyActor2.receive_request σ.depot l answer (hsound.vacant l) hlive
      (fun hrunning => hsound.registry.inhabited l ⟨hrunning, hlive⟩) (fun hrunning => hout l ⟨hrunning, hlive⟩)
      hrequest with ⟨hlacks, hplain⟩ | ⟨hopen, hseats, info, hwrites, hname⟩
    · refine Or.inl ⟨forall_handle (P := fun _ r => r.Open → r.actor.Lacks c) ?_ fun l' _ => hout l',
        fun payload hpayload => hplain _ (mem_newsTo.mp hpayload)⟩
      rw [hroom]
      exact fun hopen => hlacks hopen.1
    · refine Or.inr ⟨⟨?_, ?_, fun l' hl' => ?_⟩, info, ?_, hname⟩
      · rw [hroom]
        exact hopen
      · rw [hroom]
        exact hseats
      · rw [handle_other hl']
        exact hout l'
      · rw [hwrites, newsTo_own]

/-- A request waits, or it is answered, or it is lost with its room. -/
theorem Mailed.step (h : Mailed σ c l name isHost) (hsound : Sound σ) (hout : Out σ c) (hspares : Spares c b) :
    (Mailed (σ.step b) c l name isHost ∧ Out (σ.step b) c ∧
      ∀ payload ∈ newsTo c (σ.writes b), payload.roomInfo = none) ∨
    (Quiet (σ.step b) c ∧
      ((Out (σ.step b) c ∧ ∀ payload ∈ newsTo c (σ.writes b), payload.roomInfo = none) ∨
        (Seated (σ.step b) c l name isHost ∧ ∃ info, newsTo c (σ.writes b) = [.room info] ∧
          info.name = ((σ.step b).rooms l).actor.name))) := by
  obtain ⟨⟨before, message, after, hmailbox, hrequest, hbefore, hafter⟩, helsewhere⟩ := h
  rcases step_turn (σ := σ) hspares with ⟨l', answer, rfl⟩ | ⟨c', o, hstep, hplain, hforward⟩
  · by_cases hl : l' = l
    · subst hl
      -- The request is first in the mailbox and is handled, or the message before it is.
      cases before with
      | nil => exact Or.inr (Mailed.handled hsound hout hmailbox hrequest hafter helsewhere)
      | cons first before =>
        obtain ⟨hfirst, hbefore⟩ := still_cons.mp hbefore
        have hnext := hout.handle (l := l') answer hsound fun mail hmail => by
          rw [hmailbox] at hmail
          cases hmail
          exact hfirst
        have hothers : ∀ l ≠ l', Still c ((σ.handle l' answer).rooms l).mailbox := fun l hl => by
          rw [handle_other hl]
          exact helsewhere l hl
        rcases handle_mailbox answer hmailbox fun hsender => not_leaving (hfirst hsender) with
          hnil | ⟨more, hmore, hstill⟩
        · -- The room has ended, and the request with it.
          refine Or.inr ⟨fun l => ?_, Or.inl hnext⟩
          by_cases hl : l = l'
          · rw [hl, Server.step, hnil]
            exact List.forall_mem_nil _
          · exact hothers l hl
        · refine Or.inl ⟨⟨⟨before, message, after ++ more, ?_, hrequest, hbefore,
            still_append.mpr ⟨hafter, hstill⟩⟩, hothers⟩, hnext⟩
          rw [Server.step, hmore]
          simp
    · have hnext := hout.handle (l := l') answer hsound fun mail hmail =>
        helsewhere l' hl mail (List.mem_of_mem_head? hmail)
      refine Or.inl ⟨⟨⟨before, message, after, ?_, hrequest, hbefore, hafter⟩, fun l'' hl'' => ?_⟩, hnext⟩
      · rw [Server.step, handle_other (Ne.symm hl), hmailbox]
      · exact forall_handle (P := fun l'' r => l'' ≠ l → Still c r.mailbox)
          (fun _ => still_handle (helsewhere l' hl)) (fun l'' _ => helsewhere l'') l'' hl''
  · left
    rw [hstep]
    refine ⟨⟨?_, fun l' hl' => ?_⟩, hout.turn, hplain⟩
    · obtain ⟨more, hmore, hstill⟩ := turn_still (σ := σ) hforward l
      exact ⟨before, message, after ++ more, by rw [hmore, hmailbox]; simp, hrequest, hbefore,
        still_append.mpr ⟨hafter, hstill⟩⟩
    · obtain ⟨more, hmore, hstill⟩ := turn_still (σ := σ) hforward l'
      rw [hmore]
      exact still_append.mpr ⟨helsewhere l' hl', hstill⟩

end Server

end MultiSlider
