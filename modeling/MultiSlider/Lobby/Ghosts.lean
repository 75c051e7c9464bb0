import Mathlib.Data.List.Count
import MultiSlider.Lobby.Registry
import MultiSlider.Lobby.Service

/-! Connections that are closed. Only the room that the client's handler names hears of it, so whether other
    rooms still list the connection depends on what is in their mailboxes by then: a departure that will take
    the player off the list. -/

namespace MultiSlider

/-- A message that takes a player of its sender's off the list. -/
def LobbyMessage.departs : LobbyMessage → Bool
  | .disconnected | .json (some .leaveRoom) => true
  | _ => false

/-- How often the connection is listed. -/
def listings (c : Connection) (players : List PlayerInfo2) : Nat := players.countP (·.actor = c)

/-- How many departures of the connection are in the mailbox. -/
def departures (c : Connection) (mailbox : List Mail) : Nat :=
  mailbox.countP fun mail => mail.sender = c ∧ mail.message.departs = true

/-- The mailbox will take the connection off the list, or close the room. -/
def Covered (c : Connection) (players : List PlayerInfo2) (mailbox : List Mail) : Prop :=
  (∃ mail ∈ mailbox, mail.message = .close) ∨ listings c players ≤ departures c mailbox

instance (c : Connection) (players : List PlayerInfo2) (mailbox : List Mail) :
    Decidable (Covered c players mailbox) := by
  unfold Covered
  infer_instance

namespace Server

/-- When a connection is closed, each room that is open covers it, with the `Disconnected` for the room that
    the handler names; and so does a room that a connection closed already gets into. -/
def Leaves (σ : Server) : ServerAction → Prop
  | .received _ _ => True
  | .closed c => (σ.clients c).stopped = false → ∀ l, (σ.rooms l).Open → Covered c (σ.rooms l).actor.players
    ((σ.rooms l).mailbox ++ if (σ.clients c).handler = some l then [⟨c, .disconnected⟩] else [])
  | .handle l _ => match (σ.rooms l).mailbox with
    | ⟨c, .init hostName _ _ _ _ _⟩ :: rest => (σ.clients c).stopped = true → (σ.rooms l).actor.behaviour = .initial →
      Covered c [⟨c, hostName, false⟩] rest
    | ⟨c, .join playerName⟩ :: rest => (σ.clients c).stopped = true → (σ.rooms l).Open →
      (σ.rooms l).actor.Admits playerName → Covered c ((σ.rooms l).actor.players ++ [⟨c, playerName, false⟩]) rest
    | _ => True

/-- No message is waiting for a lobby actor. -/
def Drained (σ : Server) : Prop := ∀ l, (σ.rooms l).mailbox = []

/-- Once all mailboxes are drained, no room that is open lists a connection that is closed, and each room
    that is registered has a player whose connection is open. -/
def NoGhosts (σ : Server) : Prop := σ.Drained →
  (∀ l, (σ.rooms l).Open → ∀ player ∈ (σ.rooms l).actor.players, (σ.clients player.actor).stopped = false) ∧
  ∀ roomName stats, σ.depot.get roomName = some stats →
    ∃ player ∈ (σ.rooms stats.handler).actor.players, (σ.clients player.actor).stopped = false

/-- A new room has no players, and each connection that is closed is covered by each room that is open. -/
structure Departing (σ : Server) : Prop where
  initial : ∀ l, (σ.rooms l).actor.behaviour = .initial → (σ.rooms l).actor.players = []
  covered : ∀ c, (σ.clients c).stopped = true → ∀ l, (σ.rooms l).Open →
    Covered c (σ.rooms l).actor.players (σ.rooms l).mailbox

end Server

/-! ### Counting -/

section Counting
variable {c sender : Connection} {players : List PlayerInfo2} {mailbox rest : List Mail} {message : LobbyMessage}

theorem departures_append : departures c (mailbox ++ rest) = departures c mailbox + departures c rest :=
  List.countP_append

theorem departures_cons {mail : Mail} : departures c (mail :: rest) =
    departures c rest + if mail.sender = c ∧ mail.message.departs = true then 1 else 0 := by
  simp [departures, List.countP_cons]

theorem listings_append {others : List PlayerInfo2} :
    listings c (players ++ others) = listings c players + listings c others := List.countP_append

theorem listings_erase_le {player : PlayerInfo2} : listings c (players.erase player) ≤ listings c players :=
  List.erase_sublist.countP_le

theorem listings_erase {player : PlayerInfo2} (h : player ∈ players) (hown : player.actor = c) :
    listings c (players.erase player) = listings c players - 1 := by
  unfold listings
  rw [List.countP_erase, if_pos ⟨h, decide_eq_true hown⟩]

theorem listings_eq_zero : listings c players = 0 ↔ ∀ player ∈ players, player.actor ≠ c := by
  simp [listings, List.countP_eq_zero]

theorem Covered.append (h : Covered c players mailbox) : Covered c players (mailbox ++ rest) := by
  rcases h with ⟨mail, hmail, hclose⟩ | hle
  · exact Or.inl ⟨mail, List.mem_append_left _ hmail, hclose⟩
  · refine Or.inr (Nat.le_trans hle ?_)
    rw [departures_append]
    exact Nat.le_add_right _ _

/-- A message that is no departure of the connection and closes nothing, after which the connection is listed
    no more often. -/
theorem Covered.handled (h : Covered c players (⟨sender, message⟩ :: rest))
    (hother : ¬(sender = c ∧ message.departs = true)) (hclose : message ≠ .close) {players' : List PlayerInfo2}
    (hle : listings c players' ≤ listings c players) :
    Covered c players' (rest ++ mailbox) := by
  refine Covered.append ?_
  rcases h with ⟨mail, hmail, hmessage⟩ | hcount
  · rcases List.mem_cons.mp hmail with rfl | hmail
    · exact absurd hmessage hclose
    · exact Or.inl ⟨mail, hmail, hmessage⟩
  · rw [departures_cons, if_neg hother] at hcount
    exact Or.inr (Nat.le_trans hle hcount)

/-- A departure of the connection itself. -/
theorem Covered.departed (h : Covered c players (⟨c, message⟩ :: rest)) (hclose : message ≠ .close)
    {players' : List PlayerInfo2} (hless : listings c players' ≤ listings c players - 1) : Covered c players' rest := by
  rcases h with ⟨mail, hmail, hmessage⟩ | hcount
  · rcases List.mem_cons.mp hmail with rfl | hmail
    · exact absurd hmessage hclose
    · exact Or.inl ⟨mail, hmail, hmessage⟩
  · rw [departures_cons] at hcount
    refine Or.inr ?_
    split at hcount <;> omega

/-- A room that stays open after a message goes on covering a connection, unless the message lets it in. -/
theorem Covered.running {a : LobbyActor2} {d : Depot} {o : LobbyOutcome} (hhandled : a.Handled d sender message o)
    (h : Covered c a.players (⟨sender, message⟩ :: rest)) (hlive : o.lobby.stopped = false)
    (hjoin : ∀ playerName, message = .join playerName → a.Admits playerName → sender = c →
      Covered c (a.players ++ [⟨c, playerName, false⟩]) rest) :
    Covered c o.lobby.players (rest ++ o.forwards.map fun message => ⟨sender, message⟩) := by
  cases hhandled with
  | again => exact h.handled nofun nofun (Nat.le_refl _)
  | refused => exact h.handled nofun nofun (Nat.le_refl _)
  | nobody _ => exact h.handled nofun nofun (Nat.le_refl _)
  | told _ => exact h.handled nofun nofun (Nat.le_refl _)
  | forwarded => exact h.handled nofun nofun (Nat.le_refl _)
  | emptied _ _ => cases hlive
  | closed => cases hlive
  | spoken stays _ =>
    refine h.handled (fun hdeparts => ?_) nofun (Nat.le_refl _)
    unfold LobbyMessage.departs at hdeparts
    split at hdeparts
    · cases ‹LobbyMessage.json _ = .disconnected›
    · rename_i heq
      exact stays (LobbyMessage.json.inj heq)
    · cases hdeparts.2
  | reconfigured _ _ next _ =>
    subst next
    exact h.handled nofun nofun (Nat.le_refl _)
  | ejected _ _ _ _ next _ =>
    subst next
    exact h.handled nofun nofun listings_erase_le
  | @joined playerName b room admits next _ =>
    subst next
    by_cases hsender : sender = c
    · subst hsender
      exact (hjoin playerName rfl admits rfl).append
    · refine h.handled nofun nofun ?_
      -- The newcomer is another connection.
      have hother : listings c [⟨sender, playerName, false⟩] = 0 := by simp [listings, hsender]
      rw [listings_append, hother]
      exact Nat.le_refl _
  | stranger absent =>
    by_cases hsender : sender = c
    · subst hsender
      -- One departure less is waiting, and no player is listed for it.
      refine Covered.append (h.departed nofun ?_)
      rw [listings_eq_zero.mpr absent]
    · exact h.handled (fun hdeparts => hsender hdeparts.1) nofun (Nat.le_refl _)
  | @left player b room found next _ =>
    have hown : player.actor = sender := by simpa using List.find?_some found
    subst next
    by_cases hsender : sender = c
    · subst hsender
      -- One departure less is waiting, for the one listing that is gone.
      exact Covered.append (h.departed nofun (Nat.le_of_eq (listings_erase (List.mem_of_find?_eq_some found) hown)))
    · exact h.handled (fun hdeparts => hsender hdeparts.1) nofun listings_erase_le
  | leaving =>
    -- The departure has been handed on to the actor itself.
    rcases h with ⟨mail, hmail, hmessage⟩ | hcount
    · rcases List.mem_cons.mp hmail with rfl | hmail
      · cases hmessage
      · exact Or.inl ⟨mail, List.mem_append_left _ hmail, hmessage⟩
    · refine Or.inr (Nat.le_trans hcount ?_)
      rw [departures_cons, departures_append]
      refine Nat.add_le_add_left ?_ _
      simp [departures, LobbyMessage.departs, List.countP_cons]

end Counting

namespace Server

variable {σ : Server} {c : Connection} {l : LobbyRef} {answer : Option Int}

/-! ### One message -/

theorem Departing.start (ipBackend : String) (portBackend : Int) : Departing (start ipBackend portBackend) where
  initial _ _ := rfl
  covered _ hstopped := nomatch hstopped

/-- A turn of a client, where each connection that it leaves closed was closed before. -/
theorem Departing.turn (h : Departing σ) {o : ClientOutcome}
    (hcovered : o.client.stopped = true → ∀ l, (σ.rooms l).Open →
      Covered c (σ.rooms l).actor.players ((σ.turn c o).rooms l).mailbox) : Departing (σ.turn c o) where
  initial l := by
    rw [turn_actor]
    exact h.initial l
  covered c' hstopped l hopen := by
    rw [turn_actor]
    have hopen' := turn_open.mp hopen
    by_cases hc : c' = c
    · subst hc
      refine hcovered ?_ l hopen'
      rw [← hstopped]
      exact congrArg Client.stopped (Function.update_self c' o.client σ.clients).symm
    · have hclient : (σ.turn c o).clients c' = σ.clients c' := Function.update_of_ne hc _ _
      rw [hclient] at hstopped
      obtain ⟨more, hmailbox⟩ := turn_mailbox (σ := σ) (c := c) (o := o) (l := l)
      rw [hmailbox]
      exact (h.covered c' hstopped l hopen').append

theorem Departing.received (h : Departing σ) (raw : Option FrontendMessage) :
    Departing (σ.step (.received c raw)) := by
  refine h.turn fun hstopped l hopen => ?_
  rw [Client.receive_stopped] at hstopped
  obtain ⟨more, hmailbox⟩ := turn_mailbox (σ := σ) (c := c) (o := (σ.clients c).receive σ.depot σ.created raw) (l := l)
  rw [hmailbox]
  exact (h.covered c hstopped l hopen).append

/-- The room that the handler names is told, and no other. -/
theorem closed_mailbox (hlive : (σ.clients c).stopped = false) (hopen : (σ.rooms l).Open) :
    ((σ.step (.closed c)).rooms l).mailbox =
      (σ.rooms l).mailbox ++ if (σ.clients c).handler = some l then [⟨c, .disconnected⟩] else [] := by
  simp only [step, turn, Client.shutdown, hlive, Bool.false_eq_true, if_false]
  cases hhandler : (σ.clients c).handler with
  | none => simp [forward]
  | some l' =>
    simp only [Option.map_some, forward, Option.some.injEq]
    by_cases hl : l = l'
    · subst hl
      rw [Function.update_self, if_pos rfl, Room.post, hopen.2]
      rfl
    · rw [Function.update_of_ne hl, if_neg fun heq => hl heq.symm, List.append_nil]

theorem Departing.closed (h : Departing σ) (hleaves : Leaves σ (.closed c)) : Departing (σ.step (.closed c)) := by
  refine h.turn fun _ l hopen => ?_
  cases hlive : (σ.clients c).stopped with
  | true =>
    obtain ⟨more, hmailbox⟩ := turn_mailbox (σ := σ) (c := c) (o := (σ.clients c).shutdown σ.created) (l := l)
    rw [hmailbox]
    exact (h.covered c hlive l hopen).append
  | false =>
    have hmailbox := closed_mailbox hlive hopen
    rw [step] at hmailbox
    rw [hmailbox]
    exact hleaves hlive l hopen

/-- The room of the actor that handles a message, if it is open afterwards. -/
theorem Departing.handle_covered (h : Departing σ) (hregistry : Registry σ) (hleaves : Leaves σ (.handle l answer))
    {mail : Mail} {rest : List Mail} (hmailbox : (σ.rooms l).mailbox = mail :: rest)
    (hclosed : (σ.clients c).stopped = true) {o : LobbyOutcome}
    (ho : (σ.rooms l).actor.receive σ.depot mail.sender l answer mail.message = o)
    (hrunning' : o.lobby.behaviour = .running) (hlive' : o.lobby.stopped = false) :
    Covered c o.lobby.players (rest ++ o.forwards.map fun message => ⟨mail.sender, message⟩) := by
  have hlive := hregistry.live hmailbox
  obtain ⟨sender, message⟩ := mail
  simp only [Leaves, hmailbox] at hleaves
  have hcases := LobbyActor2.receive_cases (σ.rooms l).actor σ.depot sender l answer message
  dsimp only at hcases ho ⊢
  rw [ho] at hcases
  rcases hcases with ⟨hrunning, hhandled⟩ | ⟨hinitial, ⟨hostName, _, _, _, _, _, rfl⟩, hopened⟩ | ⟨hnot, -, -, hlobby⟩
  · have hcovered := h.covered c hclosed l ⟨hrunning, hlive⟩
    rw [hmailbox] at hcovered
    refine hcovered.running hhandled hlive' ?_
    rintro playerName rfl hadmits rfl
    exact hleaves hclosed ⟨hrunning, hlive⟩ hadmits
  · obtain ⟨name, hplayers⟩ := hopened.players
    rw [hplayers, h.initial l hinitial, List.nil_append, hopened.forwards, List.map_nil, List.append_nil]
    by_cases hsender : sender = c
    · subst hsender
      exact hleaves hclosed hinitial
    · refine Or.inr ?_
      have hnone : listings c [⟨sender, name, false⟩] = 0 := by simp [listings, hsender]
      rw [hnone]
      exact Nat.zero_le _
  · rcases hlobby with ⟨hinitial, hlobby⟩ | hzombie
    · rw [hlobby] at hrunning'
      exact absurd hrunning' hnot
    · cases hzombie.symm.trans hrunning'

theorem Departing.handle (h : Departing σ) (hregistry : Registry σ) (hleaves : Leaves σ (.handle l answer)) :
    Departing (σ.handle l answer) := by
  cases hmailbox : (σ.rooms l).mailbox with
  | nil =>
    rw [handle_idle hmailbox]
    exact h
  | cons mail rest =>
    have hroom := handle_room hmailbox answer
    dsimp only at hroom
    have hcovered {c : Connection} (hclosed : (σ.clients c).stopped = true) :=
      h.handle_covered hregistry hleaves hmailbox hclosed rfl
    have hcases := LobbyActor2.receive_cases (σ.rooms l).actor σ.depot mail.sender l answer mail.message
    dsimp only at hcases
    generalize (σ.rooms l).actor.receive σ.depot mail.sender l answer mail.message = o at hroom hcovered hcases
    -- Only the room of this actor changes.
    refine ⟨forall_handle (P := fun _ r => r.actor.behaviour = .initial → r.actor.players = []) ?_
        fun l' _ => h.initial l',
      fun c hclosed => forall_handle (P := fun _ r => r.Open → Covered c r.actor.players r.mailbox) ?_
        fun l' _ => h.covered c hclosed l'⟩
    · rw [hroom]
      intro hinitial
      rcases hcases with ⟨hrunning, hhandled⟩ | ⟨-, -, hopened⟩ | ⟨-, -, -, ⟨hbefore, hlobby⟩ | hzombie⟩
      · cases hrunning.symm.trans (hhandled.behaviour.symm.trans hinitial)
      · cases hopened.running.symm.trans hinitial
      · dsimp only
        rw [hlobby]
        exact h.initial l hbefore
      · cases hzombie.symm.trans hinitial
    · rw [hroom]
      intro hopen
      dsimp only
      rw [hopen.2]
      exact hcovered hclosed hopen.1 hopen.2

theorem Departing.step (h : Departing σ) (hregistry : Registry σ) {action : ServerAction} (hleaves : Leaves σ action) :
    Departing (σ.step action) := by
  cases action with
  | received c raw => exact h.received raw
  | closed c => exact h.closed hleaves
  | handle l answer => exact h.handle hregistry hleaves

/-- Where no departure is left to come, nobody who is gone is listed. -/
theorem Departing.noGhosts (h : Departing σ) (hregistry : Registry σ) : NoGhosts σ := by
  intro hdrained
  have hopen (l : LobbyRef) (hopen : (σ.rooms l).Open) (player : PlayerInfo2)
      (hplayer : player ∈ (σ.rooms l).actor.players) : (σ.clients player.actor).stopped = false := by
    cases hclosed : (σ.clients player.actor).stopped with
    | false => rfl
    | true =>
      rcases h.covered player.actor hclosed l hopen with ⟨mail, hmail, -⟩ | hnone
      · rw [hdrained l] at hmail
        cases hmail
      · rw [hdrained l] at hnone
        exact absurd rfl (listings_eq_zero.mp (Nat.le_zero.mp hnone) player hplayer)
  refine ⟨hopen, fun roomName stats hlookup => ?_⟩
  obtain ⟨hregistered, -⟩ := hregistry.own roomName stats hlookup
  obtain ⟨player, hplayer⟩ := List.exists_mem_of_ne_nil _ (hregistry.inhabited _ hregistered)
  exact ⟨player, hplayer, hopen _ hregistered player hplayer⟩

end Server

namespace Service

/-- What the action is for the server leaves no connection behind that a room goes on listing. -/
def Leaves (w : Service) (action : ServiceAction) : Prop := ∀ b ∈ w.serverAction action, Server.Leaves w.server b

/-- In every run of clients that use the calls of `Lobby`, and of disconnections, whose steps meet the
    condition: once all mailboxes are drained, no room lists a closed connection, and no room is left without
    a player whose connection is open. -/
theorem no_ghosts (ipBackend : String) (portBackend : Int) (as : List ServiceAction)
    (h : Machine.Along step Leaves (start ipBackend portBackend) as) :
    Machine.Always step (fun w => w.server.NoGhosts) (start ipBackend portBackend) as := by
  have hinvariant : Machine.Always step (fun w => Server.Registry w.server ∧ Server.Departing w.server)
      (start ipBackend portBackend) as :=
    always_server (P := fun σ => Server.Registry σ ∧ Server.Departing σ)
      (fun _ b hσ hleaves => ⟨hσ.1.step b, hσ.2.step hσ.1 hleaves⟩)
      ⟨Server.Registry.start ipBackend portBackend, Server.Departing.start ipBackend portBackend⟩ h
  exact hinvariant.imp fun w hw => hw.2.noGhosts hw.1

/-- The host goes away, and its room with it. -/
theorem no_ghosts_host_leaves :
    let as : List ServiceAction :=
      [.call 0 (.createRoom "a" "R" "" 2 0 ""), .deliver 0, .handle 0 none, .closed 0, .handle 0 none]
    let w := Machine.run step (start "localhost" 8700) as
    Machine.Always step (fun w => w.server.NoGhosts) (start "localhost" 8700) as ∧
      (w.server.rooms 0).actor.stopped = true ∧ w.server.depot.getRooms = [] := by
  intro as w
  refine ⟨no_ghosts "localhost" 8700 as ⟨nofun, ?_, ?_, ?_, ?_, trivial⟩, by decide +kernel, by decide +kernel⟩
  · intro b hb
    cases hb
    trivial
  · intro b hb
    cases hb
    exact fun hstopped => nomatch hstopped
  · intro b hb
    cases hb
    intro hlive l hopen
    cases l with
    | zero => exact Or.inr (by decide +kernel)
    | succ l => cases hopen.1
  · intro b hb
    cases hb
    trivial

/-- A client creates a second room without leaving its first one, which then outlives it. -/
theorem created_twice_ghost :
    let first : RoomInfo := ⟨"R1", "a", "", 2, 0, 1, some ["a"], ""⟩
    let second : RoomInfo := { first with name := "R2" }
    let as : List ServiceAction :=
      [.call 0 (.createRoom "a" "R1" "" 2 0 ""), .deliver 0, .handle 0 none, .answered 0 (some first),
        .call 0 (.createRoom "a" "R2" "" 2 0 ""), .deliver 0, .handle 1 none, .answered 0 (some second),
        .closed 0, .handle 1 none]
    let w := Machine.run step (start "localhost" 8700) as
    w.server.sent = [⟨0, .room first⟩, ⟨0, .room second⟩] ∧ w.server.Drained ∧
      (w.server.clients 0).stopped = true ∧ w.server.depot.getRooms = [first.noPlayers] ∧ ¬w.server.NoGhosts := by
  intro first second as w
  have hclosed : (w.server.clients 0).stopped = true := by decide +kernel
  have hdrained : w.server.Drained := by
    intro l
    match l with
    | 0 => decide +kernel
    | 1 => decide +kernel
    | l + 2 => rfl
  refine ⟨by decide +kernel, hdrained, hclosed, by decide +kernel, fun hnone => ?_⟩
  have hlisted : ∃ player ∈ (w.server.rooms 0).actor.players, player.actor = 0 := by decide +kernel
  obtain ⟨player, hplayer, hactor⟩ := hlisted
  have hlive := (hnone hdrained).1 0 (by decide +kernel) player hplayer
  rw [hactor] at hlive
  cases hclosed.symm.trans hlive

end Service

end MultiSlider
