import MultiSlider.Lobby.Server

/-! The registry and the rooms. Each room that is open is registered under its name, with its own actor, and
    nothing else is; only an ejection leaves the description in the registry out of date. -/

namespace MultiSlider

namespace Server

/-- The registry lists the rooms that are open, and each of these has a player. -/
structure Registry (σ : Server) : Prop where
  gone : ∀ l, (σ.rooms l).actor.stopped = true → (σ.rooms l).mailbox = []
  registered : ∀ l, (σ.rooms l).Open → ∃ info, σ.depot.get (σ.rooms l).actor.name = some ⟨l, info⟩
  own : ∀ roomName stats, σ.depot.get roomName = some stats →
    (σ.rooms stats.handler).Open ∧ (σ.rooms stats.handler).actor.name = roomName
  inhabited : ∀ l, (σ.rooms l).Open → (σ.rooms l).actor.players ≠ []

/-- Each room that is open is registered as it is, and `GetRooms` reports such rooms only. -/
structure Agrees (σ : Server) : Prop where
  stored : ∀ l, (σ.rooms l).Open → ∃ info, (σ.rooms l).actor.makeRoomInfo = some info ∧
    σ.depot.get (σ.rooms l).actor.name = some ⟨l, info⟩
  reported : ∀ listed ∈ σ.depot.getRooms, ∃ l info, (σ.rooms l).Open ∧
    (σ.rooms l).actor.makeRoomInfo = some info ∧ listed = info.noPlayers

/-- The next message of a room has nobody ejected. -/
def NoEject (σ : Server) : ServerAction → Prop
  | .handle l _ => ∀ mail ∈ (σ.rooms l).mailbox.head?, (σ.rooms l).Open →
    ¬(σ.rooms l).actor.Ejects mail.sender mail.message
  | _ => True

instance (σ : Server) (action : ServerAction) : Decidable (NoEject σ action) := by
  unfold NoEject
  split <;> infer_instance

variable {σ : Server} {c : Connection} {o : ClientOutcome} {l : LobbyRef} {answer : Option Int}

/-! ### One message -/

theorem Registry.start (ipBackend : String) (portBackend : Int) : Registry (start ipBackend portBackend) where
  gone _ _ := rfl
  registered _ hopen := nomatch hopen.1
  own roomName stats hlookup := by
    rw [Server.start, Depot.get_create] at hlookup
    cases hlookup
  inhabited _ hopen := nomatch hopen.1

/-- An actor that has a message to handle is not stopped. -/
theorem Registry.live (h : Registry σ) {mail : Mail} {rest : List Mail}
    (hmailbox : (σ.rooms l).mailbox = mail :: rest) : (σ.rooms l).actor.stopped = false := by
  cases hstopped : (σ.rooms l).actor.stopped with
  | false => rfl
  | true => cases hmailbox.symm.trans (h.gone l hstopped)

/-- An entry under another name is another room's. -/
theorem Registry.handler_ne (h : Registry σ) {roomName : String} {stats : LobbyStats}
    (hlookup : σ.depot.get roomName = some stats) (hne : roomName ≠ (σ.rooms l).actor.name) : stats.handler ≠ l := by
  intro hl
  rw [← hl] at hne
  exact hne (h.own roomName stats hlookup).2.symm

theorem Registry.turn (h : Registry σ) : Registry (σ.turn c o) where
  gone l hstopped := by
    rw [turn_actor] at hstopped
    rcases turn_room (σ := σ) (c := c) (o := o) (l := l) with hroom | ⟨message, -, hroom⟩
    · rw [hroom]
      exact h.gone l hstopped
    · rw [hroom, Room.post_of_stopped hstopped]
      exact h.gone l hstopped
  registered l hopen := by
    rw [turn_actor]
    exact h.registered l (turn_open.mp hopen)
  own roomName stats hlookup := by
    obtain ⟨hopen, hname⟩ := h.own roomName stats hlookup
    exact ⟨turn_open.mpr hopen, (congrArg _ turn_actor).trans hname⟩
  inhabited l hopen := by
    rw [turn_actor]
    exact h.inhabited l (turn_open.mp hopen)

/-- What becomes of the registry when the actor of room `l`, with `actor` after it, has handled a message: the
    entries of the others stay, and its own entry is there if the room is open. -/
structure Published (σ : Server) (l : LobbyRef) (mail : Mail) (actor : LobbyActor2) (depot : Depot) : Prop where
  kept : ∀ l' ≠ l, ∀ roomName info, σ.depot.get roomName = some ⟨l', info⟩ →
    depot.get roomName = some ⟨l', info⟩
  own : ∀ roomName stats, depot.get roomName = some stats →
    (stats.handler = l ∧ (actor.behaviour = .running ∧ actor.stopped = false) ∧ actor.name = roomName) ∨
    (stats.handler ≠ l ∧ σ.depot.get roomName = some stats)
  self : actor.behaviour = .running → actor.stopped = false →
    (∃ info, actor.makeRoomInfo = some info ∧ depot.get actor.name = some ⟨l, info⟩) ∨
    ((σ.rooms l).Open ∧ depot = σ.depot ∧ actor.name = (σ.rooms l).actor.name ∧ (actor = (σ.rooms l).actor ∨
      ((σ.rooms l).actor.Ejects mail.sender mail.message ∧ actor.players ≠ [])))

/-- The registry as it was. -/
theorem Registry.published_same (h : Registry σ) (hopen : (σ.rooms l).Open) {mail : Mail} {actor : LobbyActor2}
    (hbehaviour : actor.behaviour = .running) (hstopped : actor.stopped = false)
    (hname : actor.name = (σ.rooms l).actor.name) (hself : actor = (σ.rooms l).actor ∨
      ((σ.rooms l).actor.Ejects mail.sender mail.message ∧ actor.players ≠ [])) :
    Published σ l mail actor σ.depot where
  kept _ _ _ _ hlookup := hlookup
  own roomName stats hlookup := by
    by_cases hl : stats.handler = l
    · obtain ⟨-, howned⟩ := h.own roomName stats hlookup
      rw [hl, ← hname] at howned
      exact Or.inl ⟨hl, ⟨hbehaviour, hstopped⟩, howned⟩
    · exact Or.inr ⟨hl, hlookup⟩
  self _ _ := Or.inr ⟨hopen, rfl, hname, hself⟩

/-- A room that is not open, before or after the message. -/
theorem Registry.published_closed (h : Registry σ) (hopen : ¬(σ.rooms l).Open) {mail : Mail} {actor : LobbyActor2}
    (hclosed : actor.behaviour ≠ .running) : Published σ l mail actor σ.depot where
  kept _ _ _ _ hlookup := hlookup
  own roomName stats hlookup := by
    refine Or.inr ⟨fun hl => hopen ?_, hlookup⟩
    have howned := (h.own roomName stats hlookup).1
    rwa [hl] at howned
  self hbehaviour _ := absurd hbehaviour hclosed

/-- The room's own entry is written, and the others are as they were. -/
theorem Registry.published_written {mail : Mail} {actor : LobbyActor2} {depot : Depot} {room : RoomInfo}
    (hbehaviour : actor.behaviour = .running) (hstopped : actor.stopped = false)
    (hroom : actor.makeRoomInfo = some room)
    (hwritten : ∀ roomName, depot.get roomName =
      if roomName = actor.name then some ⟨l, room⟩ else σ.depot.get roomName)
    (hfree : ∀ stats, σ.depot.get actor.name = some stats → stats.handler = l)
    (hothers : ∀ roomName stats, σ.depot.get roomName = some stats → roomName ≠ actor.name → stats.handler ≠ l) :
    Published σ l mail actor depot where
  kept l' hl' roomName info hlookup := by
    rw [hwritten, if_neg, hlookup]
    rintro rfl
    exact hl' (hfree _ hlookup)
  own roomName stats hlookup := by
    rw [hwritten] at hlookup
    split at hlookup
    · rename_i heq
      cases hlookup
      exact Or.inl ⟨rfl, ⟨hbehaviour, hstopped⟩, heq.symm⟩
    · rename_i hne
      exact Or.inr ⟨hothers roomName stats hlookup hne, hlookup⟩
  self _ _ := Or.inl ⟨room, hroom, by rw [hwritten, if_pos rfl]⟩

theorem Registry.published_update (h : Registry σ) (hopen : (σ.rooms l).Open) {mail : Mail} {actor : LobbyActor2}
    {room : RoomInfo} (hbehaviour : actor.behaviour = .running) (hstopped : actor.stopped = false)
    (hname : actor.name = (σ.rooms l).actor.name) (hroom : actor.makeRoomInfo = some room) :
    Published σ l mail actor (σ.depot.updateRoomInfo (σ.rooms l).actor.name room) := by
  obtain ⟨old, hold⟩ := h.registered l hopen
  rw [← hname] at hold ⊢
  refine Registry.published_written hbehaviour hstopped hroom (fun roomName => ?_) (fun stats hlookup => ?_)
    fun roomName stats hlookup hne => h.handler_ne hlookup (hname ▸ hne)
  · rw [Depot.get_updateRoomInfo, hold]
    rfl
  · cases hold.symm.trans hlookup
    rfl

theorem Registry.published_ended (h : Registry σ) (hopen : (σ.rooms l).Open) {mail : Mail} {actor : LobbyActor2}
    (hstopped : actor.stopped = true) :
    Published σ l mail actor (σ.depot.unregisterLobby (σ.rooms l).actor.name) := by
  obtain ⟨old, hold⟩ := h.registered l hopen
  refine ⟨fun l' hl' roomName info hlookup => ?_, fun roomName stats hlookup => ?_, fun _ hrunning => ?_⟩
  · rw [Depot.get_unregisterLobby, if_neg, hlookup]
    rintro rfl
    cases hold.symm.trans hlookup
    exact hl' rfl
  · rw [Depot.get_unregisterLobby] at hlookup
    split at hlookup
    · cases hlookup
    · rename_i hne
      exact Or.inr ⟨h.handler_ne hlookup hne, hlookup⟩
  · cases hstopped.symm.trans hrunning

theorem Registry.published_opened (h : Registry σ) (hopen : ¬(σ.rooms l).Open) {mail : Mail} {o : LobbyOutcome}
    (hlive : (σ.rooms l).actor.stopped = false)
    (hopened : LobbyActor2.Opened (σ.rooms l).actor σ.depot mail.sender l o) : Published σ l mail o.lobby o.depot := by
  obtain ⟨room, hroom, -, hnew, hdepot⟩ := hopened.depot
  refine Registry.published_written hopened.running (hopened.stopped.trans hlive) hroom hdepot (fun stats hlookup => ?_)
    fun roomName stats hlookup _ hl => hopen ?_
  · cases hnew.symm.trans hlookup
  · rw [← hl]
    exact (h.own roomName stats hlookup).1

/-- Whatever message the actor of room `l` handles. -/
theorem Registry.published (h : Registry σ) {mail : Mail} {rest : List Mail}
    (hmailbox : (σ.rooms l).mailbox = mail :: rest) (answer : Option Int) :
    let o := (σ.rooms l).actor.receive σ.depot mail.sender l answer mail.message
    Published σ l mail o.lobby o.depot := by
  have hlive := h.live hmailbox
  intro o
  rcases LobbyActor2.receive_cases (σ.rooms l).actor σ.depot mail.sender l answer mail.message with
    ⟨hrunning, hhandled⟩ | ⟨hinitial, -, hopened⟩ | ⟨hnot, hdepot, -, hlobby⟩
  · have hbehaviour := hhandled.behaviour.trans hrunning
    rcases hhandled.published with ⟨hlobby, hdepot⟩ | ⟨hstopped, hname, room, hroom, hdepot⟩ |
      ⟨hejects, hstopped, hname, hplayers, hdepot⟩ | ⟨hstopped, hdepot⟩
    · rw [hdepot]
      exact h.published_same ⟨hrunning, hlive⟩ hbehaviour (hlobby ▸ hlive) (congrArg _ hlobby) (Or.inl hlobby)
    · rw [hdepot]
      exact h.published_update ⟨hrunning, hlive⟩ hbehaviour (hstopped.trans hlive) hname hroom
    · rw [hdepot]
      exact h.published_same ⟨hrunning, hlive⟩ hbehaviour (hstopped.trans hlive) hname (Or.inr ⟨hejects, hplayers⟩)
    · rw [hdepot]
      exact h.published_ended ⟨hrunning, hlive⟩ hstopped
  · exact h.published_opened (fun hopen => nomatch hinitial.symm.trans hopen.1) hlive hopened
  · rw [hdepot]
    refine h.published_closed (fun hopen => hnot hopen.1) ?_
    rcases hlobby with ⟨-, hlobby⟩ | hzombie
    · rw [hlobby]
      exact hnot
    · rw [hzombie]
      nofun

theorem Registry.handle (h : Registry σ) : Registry (σ.handle l answer) := by
  cases hmailbox : (σ.rooms l).mailbox with
  | nil =>
    rw [handle_idle hmailbox]
    exact h
  | cons mail rest =>
    have hpublished := h.published hmailbox answer
    have hroom := handle_room hmailbox answer
    have hdepot := handle_depot hmailbox answer
    dsimp only at hpublished hroom
    generalize (σ.rooms l).actor.receive σ.depot mail.sender l answer mail.message = o at hpublished hroom hdepot
    -- The actor publishes and withdraws under its own name only, so the entries of the others stay.
    refine ⟨forall_handle (P := fun _ r => r.actor.stopped = true → r.mailbox = []) ?_ fun l' _ => h.gone l',
      forall_handle (P := fun l' r => r.Open → ∃ info, (σ.handle l answer).depot.get r.actor.name = some ⟨l', info⟩)
        ?_ fun l' hl hopen => ?_,
      fun roomName stats hlookup => ?_,
      forall_handle (P := fun _ r => r.Open → r.actor.players ≠ []) ?_ fun l' _ => h.inhabited l'⟩
    · rw [hroom]
      exact fun hstopped => if_pos hstopped
    · rw [hroom, hdepot]
      intro hopen
      rcases hpublished.self hopen.1 hopen.2 with ⟨info, -, hlookup⟩ | ⟨hopen', hsame, hname, -⟩
      · exact ⟨info, hlookup⟩
      · rw [hsame, hname]
        exact h.registered l hopen'
    · obtain ⟨info, hlookup⟩ := h.registered l' hopen
      rw [hdepot]
      exact ⟨info, hpublished.kept l' hl _ info hlookup⟩
    · rw [hdepot] at hlookup
      rcases hpublished.own roomName stats hlookup with ⟨hl, hopen, hname⟩ | ⟨hl, hlookup⟩
      · rw [hl, hroom]
        exact ⟨hopen, hname⟩
      · rw [handle_other hl]
        exact h.own roomName stats hlookup
    · rw [hroom]
      intro hopen
      rcases hpublished.self hopen.1 hopen.2 with ⟨info, hinfo, -⟩ | ⟨hopen', -, -, hactor | ⟨-, hplayers⟩⟩
      · intro hempty
        cases hinfo.symm.trans (LobbyActor2.makeRoomInfo_eq_none.mpr hempty)
      · rw [hactor]
        exact h.inhabited l hopen'
      · exact hplayers

theorem Registry.step (h : Registry σ) (action : ServerAction) : Registry (σ.step action) := by
  cases action with
  | received c raw => exact h.turn
  | closed c => exact h.turn
  | handle l answer => exact h.handle

/-! ### The stored descriptions -/

/-- What `GetRooms` reports is what is stored, without the players. -/
theorem Registry.agrees (h : Registry σ) (hstored : ∀ l, (σ.rooms l).Open → ∃ info,
    (σ.rooms l).actor.makeRoomInfo = some info ∧ σ.depot.get (σ.rooms l).actor.name = some ⟨l, info⟩) :
    Agrees σ where
  stored := hstored
  reported listed hlisted := by
    obtain ⟨roomName, stats, hlookup, rfl⟩ := Depot.mem_getRooms hlisted
    obtain ⟨hopen, hname⟩ := h.own roomName stats hlookup
    obtain ⟨info, hroom, hinfo⟩ := hstored stats.handler hopen
    rw [hname, hlookup] at hinfo
    refine ⟨stats.handler, info, hopen, hroom, ?_⟩
    rw [Option.some.inj hinfo]

theorem Agrees.turn (hregistry : Registry σ) (h : Agrees σ) : Agrees (σ.turn c o) := by
  refine hregistry.turn.agrees fun l hopen => ?_
  rw [turn_actor]
  exact h.stored l (turn_open.mp hopen)

/-- After an ejection the entry still has the player. -/
theorem Agrees.stale (h : Agrees σ) {mail : Mail} {rest : List Mail} (hmailbox : (σ.rooms l).mailbox = mail :: rest)
    (hopen : (σ.rooms l).Open) (hejects : (σ.rooms l).actor.Ejects mail.sender mail.message) :
    ¬Agrees (σ.handle l answer) := by
  intro hagrees
  obtain ⟨player, hplayer, hlobby, hsame⟩ := LobbyActor2.receive_ejects σ.depot l answer hopen.1 hejects
  obtain ⟨info, hinfo, hstored⟩ := h.stored l hopen
  have hafter := hagrees.stored l
  rw [handle_room hmailbox, handle_depot hmailbox] at hafter
  dsimp only at hafter
  rw [hlobby, hsame] at hafter
  obtain ⟨info', hinfo', hstored'⟩ := hafter hopen
  cases hstored.symm.trans hstored'
  -- The number of players is one less.
  have hnumber := (LobbyActor2.makeRoomInfo_playersNumber hinfo').symm.trans
    (LobbyActor2.makeRoomInfo_playersNumber hinfo)
  have hless := List.length_erase_add_one hplayer
  dsimp only at hnumber
  omega

theorem Agrees.handle (hregistry : Registry σ) (h : Agrees σ) {mail : Mail} {rest : List Mail}
    (hmailbox : (σ.rooms l).mailbox = mail :: rest)
    (hno : (σ.rooms l).Open → ¬(σ.rooms l).actor.Ejects mail.sender mail.message) : Agrees (σ.handle l answer) := by
  have hpublished := hregistry.published hmailbox answer
  have hroom := handle_room hmailbox answer
  have hdepot := handle_depot hmailbox answer
  dsimp only at hpublished hroom
  generalize (σ.rooms l).actor.receive σ.depot mail.sender l answer mail.message = o at hpublished hroom hdepot
  refine hregistry.handle.agrees (forall_handle (P := fun l' r => r.Open → ∃ info,
    r.actor.makeRoomInfo = some info ∧ (σ.handle l answer).depot.get r.actor.name = some ⟨l', info⟩)
    ?_ fun l' hl hopen => ?_)
  · rw [hroom, hdepot]
    intro hopen
    rcases hpublished.self hopen.1 hopen.2 with hinfo | ⟨hopen', hsame, -, hactor | ⟨hejects, -⟩⟩
    · exact hinfo
    · rw [hactor, hsame]
      exact h.stored l hopen'
    · exact absurd hejects (hno hopen')
  · obtain ⟨info, hinfo, hlookup⟩ := h.stored l' hopen
    rw [hdepot]
    exact ⟨info, hinfo, hpublished.kept l' hl _ info hlookup⟩

/-- Handling a message keeps the agreement exactly if nobody is ejected. -/
theorem agrees_handle_iff (hregistry : Registry σ) (h : Agrees σ) :
    Agrees (σ.handle l answer) ↔ NoEject σ (.handle l answer) := by
  cases hmailbox : (σ.rooms l).mailbox with
  | nil => simp [handle_idle hmailbox, NoEject, hmailbox, h]
  | cons mail rest =>
    simp only [NoEject, hmailbox, List.head?_cons, Option.mem_def, Option.some.injEq, forall_eq']
    exact ⟨fun hagrees hopen hejects => h.stale hmailbox hopen hejects hagrees, h.handle hregistry hmailbox⟩

/-- In every run, the registry and the rooms agree in every state exactly if no message has a player ejected. -/
theorem agrees_iff (ipBackend : String) (portBackend : Int) (as : List ServerAction) :
    Machine.Always step Agrees (Server.start ipBackend portBackend) as ↔
      Machine.Along step NoEject (Server.start ipBackend portBackend) as := by
  have hstart := Registry.start ipBackend portBackend
  refine Machine.always_iff_along (fun _ action h => h.step action) (fun σ action hregistry h => ?_) hstart
    (hstart.agrees fun l hopen => nomatch hopen.1)
  cases action with
  | received c raw => exact iff_of_true (h.turn hregistry) trivial
  | closed c => exact iff_of_true (h.turn hregistry) trivial
  | handle l answer => exact agrees_handle_iff hregistry h

/-- The host ejects a player, and `GetRooms` goes on to report two players. -/
theorem eject_leaves_stale :
    let as : List ServerAction := [.received 0 (some (.createRoom "a" "R" "" 3 0 "")), .handle 0 none,
      .received 1 (some (.joinRoom "b" "R")), .handle 0 none, .handle 0 none,
      .received 0 (some (.envelop "R" (some (.ejectPlayer "b")))), .handle 0 none, .handle 0 none]
    let σ := Machine.run step (Server.start "localhost" 8700) as
    ¬Machine.Always step Agrees (Server.start "localhost" 8700) as ∧
      (σ.rooms 0).actor.players = [⟨0, "a", false⟩] ∧ (σ.rooms 0).mailbox = [] ∧
      σ.depot.getRooms.map (·.playersNumber) = [2] := by
  intro as σ
  refine ⟨fun h => ?_, by decide +kernel, by decide +kernel, by decide +kernel⟩
  have hagrees : Agrees σ := Machine.always_iff_prefix.mp h as (List.prefix_refl as)
  obtain ⟨info, hinfo, hstored⟩ := hagrees.stored 0 (by decide +kernel)
  have hsame : (σ.depot.get (σ.rooms 0).actor.name).map (·.info) = (σ.rooms 0).actor.makeRoomInfo := by
    rw [hinfo, hstored]
    rfl
  have hdiffer : (σ.depot.get (σ.rooms 0).actor.name).map (·.info) ≠ (σ.rooms 0).actor.makeRoomInfo := by
    decide +kernel
  exact hdiffer hsame

end Server

end MultiSlider
