import MultiSlider.Lobby.Seats

/-! What a client knows of being the host. It learns it with the answer to its call and is told nothing more of it,
    so it knows as long as its player does not become the host by the leave of another. -/

namespace MultiSlider

/-- The request that a client sends for a call under this name. -/
def FrontendMessage.Requests (name : String) (isHost : Bool) : FrontendMessage → Prop
  | .createRoom playerName .. => playerName = name ∧ isHost = true
  | .joinRoom playerName _ => playerName = name ∧ isHost = false
  | _ => False

/-- None of these messages brings the client into a room or out of one. -/
def WireStill (wire : List FrontendMessage) : Prop := ∀ message ∈ wire, message.moves = false

/-- What `receive` makes of a message: the room is as it says, and an `Ejected` ends it. -/
theorem Lobby.dispatch_cases {s : Lobby} (hjoined : s.isJoined = true) (payload : TcpPayload) :
    let next := (s.dispatch payload).getD s
    ((∃ flags, payload = .json (.ejected flags)) ∧ next = { s with isJoined := false }) ∨
      ((∀ flags, payload ≠ .json (.ejected flags)) ∧
        (next = s ∨ ∃ room ∈ payload.roomInfo, next = { s with myRoom := room })) := by
  unfold dispatch receive
  simp only [if_pos hjoined]
  cases payload with
  | json message =>
    cases message with
    | ejected flags => exact Or.inl ⟨⟨flags, rfl⟩, rfl⟩
    | update room data sender toSelf flags => exact Or.inr ⟨fun _ heq => (nomatch heq), Or.inr ⟨room, rfl, rfl⟩⟩
    | reconfigureSucc room => exact Or.inr ⟨fun _ heq => (nomatch heq), Or.inr ⟨room, rfl, rfl⟩⟩
    | _ => exact Or.inr ⟨fun _ heq => (nomatch heq), Or.inl rfl⟩
  | _ => exact Or.inr ⟨fun _ heq => (nomatch heq), Or.inl rfl⟩

namespace Server

/-- The client has its room, with the news it has not read: it keeps its seat, or it will read of its ejection. -/
def Held (σ : Server) (c : Connection) (name : String) (isHost : Bool) (roomName : String)
    (wire : List FrontendMessage) (news : List TcpPayload) : Prop :=
  (∃ flags, .json (.ejected flags) ∈ news) ∨
    (WireStill wire ∧ Quiet σ c ∧ ∃ l, Seated σ c l name isHost ∧ (σ.rooms l).actor.name = roomName ∧
      ∀ payload ∈ news, ∀ info ∈ payload.roomInfo, info.name = roomName)

/-- The client has no room yet: its request is on its way to the server or to the room's actor, or there is none. -/
def Asks (σ : Server) (c : Connection) (waiting : Awaiting) (wire : List FrontendMessage) (news : List TcpPayload) :
    Prop :=
  Out σ c ∧ (∀ payload ∈ news, payload.roomInfo = none) ∧
    ((Quiet σ c ∧ ∃ before request, wire = before ++ [request] ∧ WireStill before ∧
        request.Requests waiting.playerName waiting.isHost) ∨
      (WireStill wire ∧ ((∃ l, Mailed σ c l waiting.playerName waiting.isHost) ∨ Quiet σ c)))

/-- The client has a room, and is to read of it. -/
def Told (σ : Server) (c : Connection) (waiting : Awaiting) (wire : List FrontendMessage) (news : List TcpPayload) :
    Prop :=
  ∃ before info later, news = before ++ .room info :: later ∧ (∀ payload ∈ before, payload.roomInfo = none) ∧
    Held σ c waiting.playerName waiting.isHost info.name wire later

/-- How the client `s` stands to the server, with its messages on their way and the news it has not read. -/
def Stage (σ : Server) (c : Connection) (s : Lobby) (wire : List FrontendMessage) (news : List TcpPayload) : Prop :=
  match s.awaiting with
  | some waiting => s.isJoined = false ∧ (Asks σ c waiting wire news ∨ Told σ c waiting wire news)
  | none => s.isJoined = true → Held σ c s.playerName s.isHost s.myRoom.name wire news

variable {σ : Server} {c : Connection} {b : ServerAction} {name roomName : String} {isHost : Bool} {s : Lobby}
  {waiting : Awaiting} {wire wire' : List FrontendMessage} {news : List TcpPayload} {message : FrontendMessage}

/-! ### The server's steps -/

theorem moves_of_requests (h : message.Requests name isHost) : message.moves = true := by
  cases message with
  | createRoom => rfl
  | joinRoom => rfl
  | _ => exact h.elim

theorem Held.step (h : Held σ c name isHost roomName wire news) (hsound : Sound σ)
    (hspares : WireStill wire → Spares c b) (hpromoted : σ.promoted b ≠ some c) (hwire : wire' <:+ wire) :
    Held (σ.step b) c name isHost roomName wire' (news ++ newsTo c (σ.writes b)) := by
  rcases h with ⟨flags, hejected⟩ | ⟨hstill, hquiet, l, hseated, hname, hinfos⟩
  · exact Or.inl ⟨flags, List.mem_append_left _ hejected⟩
  · have hspared := hspares hstill
    rcases hseated.step hsound hquiet hspared hpromoted with ⟨flags, hejected⟩ | ⟨hseated', hname', hinfos'⟩
    · exact Or.inl ⟨flags, List.mem_append_right _ hejected⟩
    · refine Or.inr ⟨fun message hmessage => hstill message (hwire.subset hmessage), hquiet.step hspared, l, hseated',
        hname'.trans hname, fun payload hpayload info hinfo => ?_⟩
      rcases List.mem_append.mp hpayload with hpayload | hpayload
      · exact hinfos payload hpayload info hinfo
      · exact (hinfos' payload hpayload info hinfo).trans hname

theorem Told.step (h : Told σ c waiting wire news) (hsound : Sound σ) (hspares : WireStill wire → Spares c b)
    (hpromoted : σ.promoted b ≠ some c) (hwire : wire' <:+ wire) :
    Told (σ.step b) c waiting wire' (news ++ newsTo c (σ.writes b)) := by
  obtain ⟨before, info, later, rfl, hbefore, hheld⟩ := h
  exact ⟨before, info, later ++ newsTo c (σ.writes b), by simp, hbefore, hheld.step hsound hspares hpromoted hwire⟩

theorem plain_append {more : List TcpPayload} (h : ∀ payload ∈ news, payload.roomInfo = none)
    (hmore : ∀ payload ∈ more, payload.roomInfo = none) : ∀ payload ∈ news ++ more, payload.roomInfo = none :=
  fun payload hpayload => (List.mem_append.mp hpayload).elim (h payload) (hmore payload)

/-- The server takes a step that does not move the client; it may be that it takes a message from the client. -/
theorem Asks.step (h : Asks σ c waiting wire news) (hsound : Sound σ) (hspares : Spares c b)
    (hwire : wire' = wire ∨ ∃ message, message.moves = false ∧ wire = message :: wire') :
    Asks (σ.step b) c waiting wire' (news ++ newsTo c (σ.writes b)) ∨
      Told (σ.step b) c waiting wire' (news ++ newsTo c (σ.writes b)) := by
  obtain ⟨hout, hplain, ⟨hquiet, before, request, hsplit, hbefore, hrequest⟩ | ⟨hstill, hmailed⟩⟩ := h
  · obtain ⟨hout', hplain'⟩ := hout.step hsound hquiet hspares
    refine Or.inl ⟨hout', plain_append hplain hplain', Or.inl ⟨hquiet.step hspares, ?_⟩⟩
    rcases hwire with rfl | ⟨message, hmoves, rfl⟩
    · exact ⟨before, request, hsplit, hbefore, hrequest⟩
    · cases before with
      | nil =>
        cases hsplit
        cases hmoves.symm.trans (moves_of_requests hrequest)
      | cons first before =>
        cases hsplit
        exact ⟨before, request, rfl, fun message hmessage => hbefore message (List.mem_cons_of_mem _ hmessage),
          hrequest⟩
  · have hstill' : WireStill wire' := by
      rcases hwire with rfl | ⟨message, -, rfl⟩
      · exact hstill
      · exact fun message hmessage => hstill message (List.mem_cons_of_mem _ hmessage)
    rcases hmailed with ⟨l, hmailed⟩ | hquiet
    · rcases hmailed.step hsound hout hspares with ⟨hmailed', hout', hplain'⟩ | ⟨hquiet', ⟨hout', hplain'⟩ | hseated⟩
      · exact Or.inl ⟨hout', plain_append hplain hplain', Or.inr ⟨hstill', Or.inl ⟨l, hmailed'⟩⟩⟩
      · exact Or.inl ⟨hout', plain_append hplain hplain', Or.inr ⟨hstill', Or.inr hquiet'⟩⟩
      · obtain ⟨hseated, info, hnews, hname⟩ := hseated
        rw [hnews]
        exact Or.inr ⟨news, info, [], rfl, hplain,
          Or.inr ⟨hstill', hquiet', l, hseated, hname.symm, List.forall_mem_nil _⟩⟩
    · obtain ⟨hout', hplain'⟩ := hout.step hsound hquiet hspares
      exact Or.inl ⟨hout', plain_append hplain hplain', Or.inr ⟨hstill', Or.inr (hquiet.step hspares)⟩⟩

/-- The request comes in and goes to the actor of its room, if there is one. -/
theorem Out.asked (h : Out σ c) (hsound : Sound σ) (hquiet : Quiet σ c) (hlive : (σ.clients c).stopped = false)
    (hrequest : message.Requests name isHost) : let b := ServerAction.received c (some message)
    Out (σ.step b) c ∧ (∀ payload ∈ newsTo c (σ.writes b), payload.roomInfo = none) ∧
      ((∃ l, Mailed (σ.step b) c l name isHost) ∨ Quiet (σ.step b) c) := by
  have hplain : ∀ payload ∈ newsTo c (σ.writes (.received c (some message))), payload.roomInfo = none := by
    intro payload hpayload
    obtain ⟨payload', hpayload', heq⟩ := List.mem_map.mp (mem_newsTo.mp hpayload)
    cases heq
    exact Client.receive_texts _ hpayload'
  refine ⟨h.turn, hplain, ?_⟩
  have hhandled := Client.receive_handled σ.depot σ.created hlive (some message)
  simp only [Server.step]
  generalize (σ.clients c).receive σ.depot σ.created (some message) = o at hhandled
  cases hhandled with
  | @creates playerName roomName description playersLimit playersReserved userParam =>
    obtain ⟨rfl, rfl⟩ := hrequest
    refine Or.inl ⟨σ.created, ⟨[], .init playerName roomName description (toInt playersLimit) (toInt playersReserved)
      userParam, [], ?_, ⟨rfl, rfl⟩, List.forall_mem_nil _, List.forall_mem_nil _⟩, fun l hl => ?_⟩
    · simp only [Server.turn, forward, Function.update_self, hsound.lives.fresh _ (Nat.le_refl _)]
      rfl
    · simp only [Server.turn, forward, Function.update_of_ne hl]
      exact hquiet l
  | @joins playerName roomName lobby found =>
    obtain ⟨rfl, rfl⟩ := hrequest
    have hopen := (hsound.registry.own roomName lobby found).1
    refine Or.inl ⟨lobby.handler, ⟨(σ.rooms lobby.handler).mailbox, .join playerName, [], ?_, ⟨rfl, rfl⟩,
      hquiet lobby.handler, List.forall_mem_nil _⟩, fun l hl => ?_⟩
    · simp only [Server.turn, forward, Function.update_self, Room.post, hopen.2]
      rfl
    · simp only [Server.turn, forward, Function.update_of_ne hl]
      exact hquiet l
  | missing absent => exact Or.inr hquiet
  | _ => exact hrequest.elim

/-- The server takes a step that does not move the client. -/
theorem Stage.step (h : Stage σ c s wire news) (hsound : Sound σ) (hspares : Spares c b)
    (hpromoted : σ.promoted b = some c → s.isJoined = false ∧ s.awaiting = none)
    (hwire : wire' = wire ∨ ∃ message, message.moves = false ∧ wire = message :: wire') :
    Stage (σ.step b) c s wire' (news ++ newsTo c (σ.writes b)) := by
  have hsuffix : wire' <:+ wire := by
    rcases hwire with rfl | ⟨message, -, rfl⟩
    · exact List.suffix_refl _
    · exact List.suffix_cons _ _
  unfold Stage at h ⊢
  cases hawaiting : s.awaiting with
  | some waiting =>
    rw [hawaiting] at h hpromoted
    obtain ⟨hjoined, hasks | htold⟩ := h
    · exact ⟨hjoined, hasks.step hsound hspares hwire⟩
    · exact ⟨hjoined, Or.inr (htold.step hsound (fun _ => hspares) (fun hc => nomatch (hpromoted hc).2) hsuffix)⟩
  | none =>
    rw [hawaiting] at h
    exact fun hjoined => (h hjoined).step hsound (fun _ => hspares)
      (fun hc => nomatch hjoined.symm.trans (hpromoted hc).1) hsuffix

/-- The server takes from the client what moves it. -/
theorem Stage.moved (h : Stage σ c s (message :: wire) news) (hsound : Sound σ) (hlive : (σ.clients c).stopped = false)
    (hmoves : message.moves = true) : let b := ServerAction.received c (some message)
    Stage (σ.step b) c s wire (news ++ newsTo c (σ.writes b)) := by
  have hspares : WireStill (message :: wire) → Spares c (.received c (some message)) :=
    fun hstill => nomatch hmoves.symm.trans (hstill message List.mem_cons_self)
  unfold Stage at h ⊢
  cases hawaiting : s.awaiting with
  | some waiting =>
    rw [hawaiting] at h
    obtain ⟨hjoined, ⟨hout, hplain, ⟨hquiet, before, request, hsplit, hbefore, hrequest⟩ | ⟨hstill, -⟩⟩ | htold⟩ := h
    · refine ⟨hjoined, Or.inl ?_⟩
      cases before with
      | nil =>
        cases hsplit
        obtain ⟨hout', hplain', hmailed⟩ := hout.asked hsound hquiet hlive hrequest
        exact ⟨hout', plain_append hplain hplain', Or.inr ⟨List.forall_mem_nil _, hmailed⟩⟩
      | cons first before =>
        cases hsplit
        cases hmoves.symm.trans (hbefore message List.mem_cons_self)
    · cases hmoves.symm.trans (hstill message List.mem_cons_self)
    · exact ⟨hjoined, Or.inr (htold.step hsound hspares nofun (List.suffix_cons _ _))⟩
  | none =>
    rw [hawaiting] at h
    exact fun hjoined => (h hjoined).step hsound hspares nofun (List.suffix_cons _ _)

/-! ### The client's steps -/

theorem Held.read {payload : TcpPayload} {rest : List TcpPayload} {roomName' : String}
    (h : Held σ c name isHost roomName wire (payload :: rest)) (hstays : ∀ flags, payload ≠ .json (.ejected flags))
    (hroom : roomName' = roomName ∨ ∃ info ∈ payload.roomInfo, info.name = roomName') :
    Held σ c name isHost roomName' wire rest := by
  rcases h with ⟨flags, hejected⟩ | ⟨hstill, hquiet, l, hseated, hname, hinfos⟩
  · exact Or.inl ⟨flags, (List.mem_cons.mp hejected).resolve_left fun heq => hstays flags heq.symm⟩
  · have hsame : roomName' = roomName := by
      rcases hroom with hsame | ⟨info, hinfo, rfl⟩
      · exact hsame
      · exact hinfos payload List.mem_cons_self info hinfo
    rw [hsame]
    exact Or.inr ⟨hstill, hquiet, l, hseated, hname,
      fun payload' hpayload' => hinfos payload' (List.mem_cons_of_mem _ hpayload')⟩

/-- The call that waits takes the next of the news for its answer. -/
theorem Stage.answer {payload : TcpPayload} {rest : List TcpPayload} (h : Stage σ c s wire (payload :: rest))
    (hawaiting : s.awaiting = some waiting) : Stage σ c (s.answered payload.asRoom) wire rest := by
  unfold Stage at h ⊢
  unfold Lobby.answered
  rw [hawaiting] at h ⊢
  obtain ⟨hjoined, h⟩ := h
  cases payload with
  | room info =>
    rcases h with ⟨-, hplain, -⟩ | ⟨before, info', later, hnews, hbefore, hheld⟩
    · cases hplain _ List.mem_cons_self
    · cases before with
      | nil =>
        cases hnews
        exact fun _ => hheld
      | cons first before =>
        cases hnews
        cases hbefore _ List.mem_cons_self
  | _ => exact fun hjoined' => nomatch hjoined.symm.trans hjoined'

/-- No answer comes. -/
theorem Stage.timeout (h : Stage σ c s wire news) : Stage σ c (s.answered none) wire news := by
  unfold Stage at h ⊢
  unfold Lobby.answered
  cases hawaiting : s.awaiting with
  | some waiting =>
    rw [hawaiting] at h
    exact fun hjoined => nomatch h.1.symm.trans hjoined
  | none =>
    rw [hawaiting] at h
    dsimp only
    rw [hawaiting]
    exact h

/-- `receive` takes the next of the news. -/
theorem Stage.receive {payload : TcpPayload} {rest : List TcpPayload} (h : Stage σ c s wire (payload :: rest))
    (hjoined : s.isJoined = true) (hidle : s.awaiting = none) :
    Stage σ c ((s.dispatch payload).getD s) wire rest := by
  unfold Stage at h ⊢
  rw [hidle] at h
  have hheld := h hjoined
  rcases Lobby.dispatch_cases hjoined payload with ⟨-, hnext⟩ | ⟨hstays, hnext | ⟨room, hroom, hnext⟩⟩
  · rw [hnext]
    dsimp only
    rw [hidle]
    nofun
  · rw [hnext, hidle]
    exact fun _ => hheld.read hstays (Or.inl rfl)
  · rw [hnext]
    dsimp only
    rw [hidle]
    exact fun _ => hheld.read hstays (Or.inr ⟨room, hroom, rfl⟩)

end Server

/-! ### The clients and the server -/

/-- The call waits for an answer that lets the client into a room. -/
def LobbyCall.enters : LobbyCall → Bool
  | .createRoom .. | .joinRoom .. => true
  | _ => false

/-- The player of this name, on this connection, is the host of the room of that name. -/
def Server.HostOf (σ : Server) (c : Connection) (playerName roomName : String) : Prop :=
  ∃ l, (σ.rooms l).Open ∧ (σ.rooms l).actor.name = roomName ∧
    ∃ host ∈ (σ.rooms l).actor.getHost, host.actor = c ∧ host.name = playerName

namespace Wired

/-- The client is in a room and has read all that was sent to it. -/
structure Current (w : Wired) (c : Connection) : Prop where
  live : (w.server.clients c).stopped = false
  joined : (w.lobbies c).isJoined = true
  idle : (w.lobbies c).awaiting = none
  read : w.pending c = []

/-- Each client in a room knows whether it is the host, when it has read all that was sent to it. So where all the
    clients of a room have, one player passes the checks for the host. -/
structure HostKnown (w : Wired) : Prop where
  known : ∀ c, w.Current c → ((w.lobbies c).isHost = true ↔
    w.server.HostOf c (w.lobbies c).playerName (w.lobbies c).myRoom.name)
  one : ∀ l, (w.server.rooms l).Open → (∀ player ∈ (w.server.rooms l).actor.players, w.Current player.actor) →
    ∃! player, player ∈ (w.server.rooms l).actor.players ∧ (w.lobbies player.actor).isHost = true

/-- Nothing of an earlier room or call is left: the client is in no room and has read all that was sent to it,
    neither a message on its way nor one in a mailbox brings it into a room or out of one, and no room has it. -/
def Free (w : Wired) (c : Connection) : Prop :=
  (w.lobbies c).isJoined = false ∧ w.pending c = [] ∧ (∀ message ∈ w.wires c, message.moves = false) ∧
    ∀ l < w.server.created, Still c (w.server.rooms l).mailbox ∧
      ((w.server.rooms l).Open → (w.server.rooms l).actor.Lacks c)

/-- Only a client that is free calls `createRoom` or `joinRoom`. Where a host leaves, the next player on the list is
    one whose client has left the room, or lost its connection. -/
def HostsStay (w : Wired) : WiredAction → Prop
  | .call c k => k.enters = true → ((w.lobbies c).call k).isSome = true → (w.server.clients c).stopped = false →
    w.Free c
  | action => ∀ b ∈ w.serverAction action, ∀ c ∈ w.server.promoted b, (w.server.clients c).stopped = false →
    (w.lobbies c).isJoined = false ∧ (w.lobbies c).awaiting = none

instance (w : Wired) (c : Connection) : Decidable (Free w c) := by
  unfold Free
  infer_instance

instance (w : Wired) (action : WiredAction) : Decidable (HostsStay w action) := by
  unfold HostsStay
  split <;> infer_instance

/-- The server is in order, and each client with an open connection stands to it as it should. -/
structure Tracked (w : Wired) : Prop where
  order : InOrder w
  sound : w.server.Sound
  stages : ∀ c, (w.server.clients c).stopped = false →
    w.server.Stage c (w.lobbies c) (w.wires c) (w.pending c)

variable {w v : Wired} {c : Connection}

theorem Tracked.start (ipBackend : String) (portBackend : Int) : Tracked (start ipBackend portBackend) where
  order := .start ipBackend portBackend
  sound := .start ipBackend portBackend
  stages _ _ := nofun

/-- A client that has nothing left of an earlier room. -/
theorem Free.quiet (h : Free w c) (hsound : w.server.Sound) : w.server.Quiet c ∧ w.server.Out c := by
  obtain ⟨-, -, -, hrooms⟩ := h
  refine ⟨fun l => ?_, fun l hopen => (hrooms l (hsound.lives.created hopen)).2 hopen⟩
  by_cases hl : l < w.server.created
  · exact (hrooms l hl).1
  · rw [hsound.lives.fresh l (Nat.le_of_not_lt hl)]
    exact List.forall_mem_nil _

/-- The request of a client that has nothing left of an earlier room. -/
theorem Free.asks (h : Free w c) (hsound : w.server.Sound) {waiting : Awaiting} {request : FrontendMessage}
    (hrequest : request.Requests waiting.playerName waiting.isHost) :
    w.server.Stage c { w.lobbies c with awaiting := some waiting } (w.wires c ++ [request]) (w.pending c) := by
  obtain ⟨hquiet, hout⟩ := h.quiet hsound
  obtain ⟨hjoined, hpending, hwires, -⟩ := h
  refine ⟨hjoined, Or.inl ⟨hout, ?_, Or.inl ⟨hquiet, w.wires c, request, rfl, hwires, hrequest⟩⟩⟩
  rw [hpending]
  exact List.forall_mem_nil _

theorem still_send {wire : List FrontendMessage} {message : FrontendMessage} (h : WireStill wire)
    (hmessage : message.moves = false) : WireStill (wire ++ [message]) := by
  intro message' hmem
  rcases List.mem_append.mp hmem with hmem | hmem
  · exact h message' hmem
  · rw [List.mem_singleton.mp hmem]
    exact hmessage

/-- A client goes on as it is, and sends what does not move it. -/
theorem stage_send {σ : Server} {s : Lobby} {wire : List FrontendMessage} {news : List TcpPayload}
    {message : FrontendMessage} (h : σ.Stage c s wire news) (hidle : s.awaiting = none)
    (hmessage : message.moves = false) : σ.Stage c s (wire ++ [message]) news := by
  unfold Server.Stage at h ⊢
  rw [hidle] at h ⊢
  intro hjoined
  rcases h hjoined with hejected | ⟨hstill, hseated⟩
  · exact Or.inl hejected
  · exact Or.inr ⟨still_send hstill hmessage, hseated⟩

/-- A client calls. -/
theorem Tracked.call_stage (h : Tracked w) {k : LobbyCall} {s : Lobby} {message : FrontendMessage}
    (hcall : (w.lobbies c).call k = some (s, message)) (hlive : (w.server.clients c).stopped = false)
    (hfree : k.enters = true → w.Free c) : w.server.Stage c s (w.wires c ++ [message]) (w.pending c) := by
  have hstage := h.stages c hlive
  obtain ⟨hidle, hcalled⟩ := Lobby.call_called hcall
  cases hcalled with
  | creates => exact (hfree rfl).asks h.sound ⟨rfl, rfl⟩
  | joins hout => exact (hfree rfl).asks h.sound ⟨rfl, rfl⟩
  | leaves hjoined =>
    unfold Server.Stage
    dsimp only
    rw [hidle]
    nofun
  | _ => exact stage_send hstage hidle rfl

/-- A step that leaves the server as it is, and all but one of the clients. -/
theorem Tracked.of_client (h : Tracked w) (horder : InOrder v) (hserver : v.server = w.server)
    (hother : ∀ c' ≠ c, v.lobbies c' = w.lobbies c' ∧ v.wires c' = w.wires c' ∧ v.pending c' = w.pending c')
    (hstage : (w.server.clients c).stopped = false →
      w.server.Stage c (v.lobbies c) (v.wires c) (v.pending c)) : Tracked v where
  order := horder
  sound := by
    rw [hserver]
    exact h.sound
  stages c' hlive := by
    rw [hserver] at hlive ⊢
    by_cases hc : c' = c
    · subst hc
      exact hstage hlive
    · obtain ⟨hlobby, hwires, hpending⟩ := hother c' hc
      rw [hlobby, hwires, hpending]
      exact h.stages c' hlive

theorem Tracked.call (h : Tracked w) {k : LobbyCall} (hok : HostsStay w (.call c k)) :
    Tracked (w.step (.call c k)) := by
  have horder := h.order.step (.call c k)
  cases hcall : (w.lobbies c).call k with
  | none =>
    have hstep : w.step (.call c k) = w := by simp only [step, Service.step, hcall]
    rw [hstep]
    exact h
  | some next =>
    obtain ⟨s, message⟩ := next
    have hstep : w.step (.call c k) = { w with
        lobbies := Function.update w.lobbies c s, wires := Function.update w.wires c (w.wires c ++ [message]) } := by
      simp only [step, Service.step, hcall]
    rw [hstep] at horder ⊢
    refine h.of_client horder rfl (fun c' hc => ⟨Function.update_of_ne hc _ _, Function.update_of_ne hc _ _, rfl⟩)
      fun hlive => ?_
    simp only [Function.update_self]
    exact h.call_stage hcall hlive fun henters => hok henters (by rw [hcall]; rfl) hlive

/-- A client takes a message. -/
theorem Tracked.take (h : Tracked w) {s : Lobby} (horder : InOrder (w.take c s)) {payload : TcpPayload}
    {rest : List TcpPayload} (hpending : w.pending c = payload :: rest)
    (hstage : w.server.Stage c (w.lobbies c) (w.wires c) (payload :: rest) → w.server.Stage c s (w.wires c) rest) :
    Tracked (w.take c s) := by
  refine h.of_client (c := c) horder rfl (fun c' hc => ⟨?_, rfl, pending_take_other hc s⟩) fun hlive => ?_
  · simp only [Wired.take, Function.update_of_ne hc]
  · rw [pending_take hpending]
    simp only [Wired.take, Function.update_self]
    exact hstage (hpending ▸ h.stages c hlive)

theorem Tracked.answer (h : Tracked w) (c : Connection) : Tracked (w.step (.answer c)) := by
  have horder := h.order.step (.answer c)
  simp only [step] at horder ⊢
  split at horder
  · rename_i waiting payload rest hwaiting hpending
    exact h.take horder hpending fun hstage => hstage.answer hwaiting
  · exact h

theorem Tracked.receive (h : Tracked w) (c : Connection) : Tracked (w.step (.receive c)) := by
  have horder := h.order.step (.receive c)
  simp only [step] at horder ⊢
  split at horder
  · rename_i payload rest hreceives hpending
    obtain ⟨hjoined, hidle⟩ := (Bool.and_eq_true _ _).mp hreceives
    exact h.take horder hpending fun hstage => hstage.receive hjoined (Option.isNone_iff_eq_none.mp hidle)
  · exact h

theorem Tracked.timeout (h : Tracked w) (c : Connection) : Tracked (w.step (.timeout c)) := by
  have horder := h.order.step (.timeout c)
  simp only [step] at horder ⊢
  by_cases hpending : w.pending c = []
  · rw [if_pos hpending] at horder ⊢
    refine h.of_client (c := c) horder rfl (fun c' hc => ⟨Function.update_of_ne hc _ _, rfl, rfl⟩) fun hlive => ?_
    simp only [Service.step, Function.update_self]
    exact (h.stages c hlive).timeout
  · rw [if_neg hpending]
    exact h

/-- The server takes a step. -/
theorem Tracked.of_server (h : Tracked w) {b : ServerAction} (horder : InOrder v) (hserver : v.server = w.server.step b)
    (hlobbies : v.lobbies = w.lobbies) (htaken : v.taken = w.taken)
    (hstages : ∀ c, (w.server.clients c).stopped = false → (v.server.clients c).stopped = false →
      (w.server.step b).Stage c (w.lobbies c) (v.wires c) (w.pending c ++ newsTo c (w.server.writes b))) :
    Tracked v where
  order := horder
  sound := by
    rw [hserver]
    exact h.sound.step b
  stages c hlive := by
    have hpending : v.pending c = w.pending c ++ newsTo c (w.server.writes b) :=
      h.order.pending_append hserver (congrFun htaken c)
    have hbefore : (w.server.clients c).stopped = false := by
      rw [hserver] at hlive
      exact Bool.eq_false_iff.mpr fun hstopped => nomatch (Server.stopped_step hstopped b).symm.trans hlive
    have hstage := hstages c hbefore hlive
    rw [hserver, hlobbies, hpending]
    exact hstage

theorem Tracked.handle (h : Tracked w) {l : LobbyRef} {answer : Option Int} (hok : HostsStay w (.handle l answer)) :
    Tracked (w.step (.handle l answer)) :=
  h.of_server (b := .handle l answer) (h.order.step _) rfl rfl rfl fun c hlive _ =>
    (h.stages c hlive).step h.sound trivial (fun hpromoted => hok _ rfl c hpromoted hlive) (Or.inl rfl)

theorem Tracked.closed (h : Tracked w) (c : Connection) : Tracked (w.step (.closed c)) := by
  refine h.of_server (b := .closed c) (h.order.step _) rfl rfl rfl fun c' hlive hlive' => ?_
  by_cases hc : c' = c
  · subst hc
    have hstopped : ((w.step (.closed c')).server.clients c').stopped = true := by
      have hclient : (w.step (.closed c')).server.clients c' =
          ((w.server.clients c').shutdown w.server.created).client := Function.update_self c' _ _
      rw [hclient, Client.shutdown, hlive]
      rfl
    cases hstopped.symm.trans hlive'
  · have hwires : (w.step (.closed c)).wires c' = w.wires c' := Function.update_of_ne hc _ _
    rw [hwires]
    exact (h.stages c' hlive).step h.sound (Ne.symm hc) (by simp [Server.promoted]) (Or.inl rfl)

theorem Tracked.deliver (h : Tracked w) (c : Connection) : Tracked (w.step (.deliver c)) := by
  have horder := h.order.step (.deliver c)
  cases hwire : w.wires c with
  | nil =>
    have hstep : w.step (.deliver c) = w := by simp only [step, Service.step, hwire]
    rw [hstep]
    exact h
  | cons message rest =>
    have hstep : w.step (.deliver c) = { w with
        server := w.server.step (.received c (some message)), wires := Function.update w.wires c rest } := by
      simp only [step, Service.step, hwire]
    rw [hstep] at horder ⊢
    refine h.of_server (b := .received c (some message)) horder rfl rfl rfl fun c' hlive _ => ?_
    have hstage := h.stages c' hlive
    by_cases hc : c' = c
    · subst hc
      rw [hwire] at hstage
      simp only [Function.update_self]
      cases hmoves : message.moves with
      | true => exact hstage.moved h.sound hlive hmoves
      | false =>
        refine hstage.step h.sound (fun _ message' hmessage' => ?_) (by simp [Server.promoted])
          (Or.inr ⟨message, hmoves, rfl⟩)
        cases hmessage'
        exact hmoves
    · simp only [Function.update_of_ne hc]
      exact hstage.step h.sound (fun heq => absurd heq.symm hc) (by simp [Server.promoted]) (Or.inl rfl)

theorem Tracked.step (h : Tracked w) (action : WiredAction) (hok : HostsStay w action) : Tracked (w.step action) := by
  cases action with
  | call c k => exact h.call hok
  | answer c => exact h.answer c
  | timeout c => exact h.timeout c
  | receive c => exact h.receive c
  | deliver c => exact h.deliver c
  | closed c => exact h.closed c
  | handle l answer => exact h.handle hok

/-- A client that is in a room and has read all has the seat that it thinks it has. -/
theorem Tracked.seat (h : Tracked w) (hcurrent : w.Current c) : ∃ l,
    w.server.Seated c l (w.lobbies c).playerName (w.lobbies c).isHost ∧
      (w.server.rooms l).actor.name = (w.lobbies c).myRoom.name := by
  have hstage := h.stages c hcurrent.live
  unfold Server.Stage at hstage
  rw [hcurrent.idle, hcurrent.read] at hstage
  rcases hstage hcurrent.joined with ⟨flags, hejected⟩ | ⟨-, -, l, hseated, hname, -⟩
  · cases hejected
  · exact ⟨l, hseated, hname⟩

/-- The client of a player that is listed, if it has read all, has its seat there. -/
theorem Tracked.listed (h : Tracked w) {l : LobbyRef} (hopen : (w.server.rooms l).Open) {player : PlayerInfo2}
    (hplayer : player ∈ (w.server.rooms l).actor.players) (hcurrent : w.Current player.actor) :
    (w.lobbies player.actor).isHost = true ↔ (w.server.rooms l).actor.getHost = some player := by
  obtain ⟨l', hseated, -⟩ := h.seat hcurrent
  have hl : l = l' := by
    by_contra hne
    exact hseated.elsewhere l hne hopen player hplayer rfl
  subst hl
  rw [hseated.seats.host, ← hseated.seats.only player hplayer rfl]

theorem Tracked.hostKnown (h : Tracked w) : HostKnown w where
  known c hcurrent := by
    obtain ⟨l, hseated, hname⟩ := h.seat hcurrent
    constructor
    · intro hhost
      exact ⟨l, hseated.live, hname, _, hseated.seats.host.mp hhost, rfl, rfl⟩
    · rintro ⟨l', hopen, -, host, hhost, hactor, -⟩
      have hplayer : host ∈ (w.server.rooms l').actor.players := List.mem_of_mem_head? hhost
      rw [← hactor] at hcurrent ⊢
      exact (h.listed hopen hplayer hcurrent).mpr hhost
  one l hopen hall := by
    obtain ⟨host, rest, hplayers⟩ := List.exists_cons_of_ne_nil (h.sound.registry.inhabited l hopen)
    have hhost : (w.server.rooms l).actor.getHost = some host := by
      unfold LobbyActor2.getHost
      rw [hplayers]
      rfl
    have hmember := List.mem_of_mem_head? (Option.mem_def.mpr hhost)
    refine ⟨host, ⟨hmember, (h.listed hopen hmember (hall host hmember)).mpr hhost⟩, ?_⟩
    rintro player ⟨hplayer, hpasses⟩
    have hsame := (h.listed hopen hplayer (hall player hplayer)).mp hpasses
    exact Option.some.inj (hsame.symm.trans hhost)

/-- In every run in which each client that calls `createRoom` or `joinRoom` is free, and no client in a room gets to
    be the host by the leave of another: each client in a room knows whether it is the host, in every state. -/
theorem host_known (ipBackend : String) (portBackend : Int) (as : List WiredAction)
    (h : Machine.Along step HostsStay (start ipBackend portBackend) as) :
    Machine.Always step HostKnown (start ipBackend portBackend) as := by
  have htracked : Machine.Always step Tracked (start ipBackend portBackend) as :=
    Machine.always_of_along (fun _ action h hok => Tracked.step h action hok) (.start ipBackend portBackend) h
  exact htracked.imp fun _ h => h.hostKnown

/-- The host ejects a player and a third one loses its connection. -/
theorem host_known_ejected :
    let room : RoomInfo := ⟨"R", "a", "", 3, 0, 1, some ["a"], ""⟩
    let as : List WiredAction := [.call 0 (.createRoom "a" "R" "" 3 0 ""), .deliver 0, .handle 0 none, .answer 0,
      .call 1 (.joinRoom "b" room), .deliver 1, .handle 0 none, .answer 1, .call 2 (.joinRoom "c" room), .deliver 2,
      .handle 0 none, .handle 0 none, .answer 2, .closed 2, .call 0 (.eject "b"), .deliver 0, .handle 0 none,
      .handle 0 none, .handle 0 none, .handle 0 none, .handle 0 none, .receive 0, .receive 0, .receive 0, .receive 0]
    let w := Machine.run step (start "localhost" 8700) as
    HostKnown w ∧ (w.lobbies 0).isJoined = true ∧ (w.lobbies 0).isHost = true ∧ w.pending 0 = [] ∧
      (w.server.rooms 0).actor.players = [⟨0, "a", false⟩] := by
  intro room as w
  exact ⟨Machine.always_iff_prefix.mp (host_known "localhost" 8700 as (by decide +kernel)) as (List.prefix_refl as),
    by decide +kernel, by decide +kernel, by decide +kernel, by decide +kernel⟩

/-- The host leaves. The next player has read that it is the host now, and `isHost` is not true. -/
theorem new_host_unaware :
    let room : RoomInfo := ⟨"R", "a", "", 2, 0, 1, some ["a"], ""⟩
    let as : List WiredAction := [.call 0 (.createRoom "a" "R" "" 2 0 ""), .deliver 0, .handle 0 none, .answer 0,
      .call 1 (.joinRoom "b" room), .deliver 1, .handle 0 none, .answer 1, .handle 0 none, .call 0 .leaveRoom,
      .deliver 0, .handle 0 none, .handle 0 none, .handle 0 none, .receive 1]
    let w := Machine.run step (start "localhost" 8700) as
    ¬Machine.Always step HostKnown (start "localhost" 8700) as ∧ (w.lobbies 1).isHost = false ∧
      (w.lobbies 1).myRoom = ⟨"R", "b", "", 2, 0, 1, some ["b"], ""⟩ ∧ (w.lobbies 1).playerName = "b" ∧
      w.pending 1 = [] ∧ (w.server.rooms 0).actor.players = [⟨1, "b", false⟩] := by
  intro room as w
  have hhost : (w.lobbies 1).isHost = false := by decide +kernel
  have hplayers : (w.server.rooms 0).actor.players = [⟨1, "b", false⟩] := by decide +kernel
  refine ⟨fun h => ?_, hhost, by decide +kernel, by decide +kernel, by decide +kernel, hplayers⟩
  have hlast : w.HostKnown := Machine.always_iff_prefix.mp h as (List.prefix_refl as)
  have hcurrent : w.Current 1 := ⟨by decide +kernel, by decide +kernel, by decide +kernel, by decide +kernel⟩
  have hof : w.server.HostOf 1 (w.lobbies 1).playerName (w.lobbies 1).myRoom.name :=
    ⟨0, by decide +kernel, by decide +kernel, ⟨1, "b", false⟩, by decide +kernel, rfl, by decide +kernel⟩
  cases hhost.symm.trans ((hlast.known 1 hcurrent).mpr hof)

end Wired

end MultiSlider
