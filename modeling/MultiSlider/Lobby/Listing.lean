import MultiSlider.Lobby.Directory
import MultiSlider.Lobby.Frontend

/-! What `GetRooms` is answered. The frontend actor reads the registry when it comes to the request, whatever the
    rooms do meanwhile: each request gets one list, in the order in which they came, and each list names the rooms
    that were open at that moment. -/

namespace MultiSlider

namespace Server

/-- The rooms are those that are open: each once, under its name and without its players, and no more than the registry
    has place for. -/
structure Lists (σ : Server) (rooms : List RoomInfo) : Prop where
  distinct : (rooms.map (·.name)).Nodup
  listed : ∀ room ∈ rooms, room.players = none ∧ ∃ l, (σ.rooms l).Open ∧ (σ.rooms l).actor.name = room.name
  complete : ∀ l, (σ.rooms l).Open → ∃ room ∈ rooms, room.name = (σ.rooms l).actor.name
  limited : rooms.length ≤ lobbiesMaxNumber

/-- Each entry of the registry describes a room of its key. -/
def Keyed (σ : Server) : Prop := ∀ roomName stats, σ.depot.get roomName = some stats → stats.info.name = roomName

variable {σ : Server}

theorem keyed_start (ipBackend : String) (portBackend : Int) : Keyed (start ipBackend portBackend) := by
  intro roomName stats hlookup
  rw [start, Depot.get_create] at hlookup
  cases hlookup

/-- An actor publishes its room under its own name. -/
theorem Keyed.handle (hregistry : Registry σ) (h : Keyed σ) (l : LobbyRef) (answer : Option Int) :
    Keyed (σ.handle l answer) := by
  cases hmailbox : (σ.rooms l).mailbox with
  | nil =>
    rw [handle_idle hmailbox]
    exact h
  | cons mail rest =>
    have hpublished := hregistry.published hmailbox answer
    intro roomName stats hlookup
    rw [handle_depot hmailbox] at hlookup
    -- The entry is the one that the actor has published just now, or it was there before.
    rcases hpublished.own roomName stats hlookup with ⟨hl, hopen, hname⟩ | ⟨-, hkept⟩
    · rcases hpublished.self hopen.1 hopen.2 with ⟨info, hinfo, hstored⟩ | ⟨-, hsame, -⟩
      · rw [hname, hlookup] at hstored
        rw [Option.some.inj hstored, LobbyActor2.makeRoomInfo_name hinfo, hname]
      · rw [hsame] at hlookup
        exact h roomName stats hlookup
    · exact h roomName stats hkept

theorem Keyed.step (hregistry : Registry σ) (h : Keyed σ) (action : ServerAction) : Keyed (σ.step action) := by
  cases action with
  | received c raw => exact h
  | closed c => exact h
  | handle l answer => exact h.handle hregistry l answer

/-- The names in the answer to `GetRooms` are the keys of the registry. -/
theorem Keyed.getRooms_names (h : Keyed σ) : σ.depot.getRooms.map (·.name) = σ.depot.lobbies.keys := by
  rw [Depot.getRooms, List.map_map]
  refine List.map_congr_left fun entry hentry => ?_
  exact h entry.1 entry.2 (AList.mem_lookup_iff.mpr hentry)

theorem Registry.lists (h : Registry σ) (hkeyed : Keyed σ) (hlength : σ.depot.lobbies.keys.length ≤ lobbiesMaxNumber) :
    Lists σ σ.depot.getRooms where
  distinct := by
    rw [hkeyed.getRooms_names]
    exact σ.depot.lobbies.keys_nodup
  listed room hroom := by
    obtain ⟨roomName, stats, hlookup, rfl⟩ := Depot.mem_getRooms hroom
    obtain ⟨hopen, hname⟩ := h.own roomName stats hlookup
    exact ⟨rfl, stats.handler, hopen, hname.trans (hkeyed roomName stats hlookup).symm⟩
  complete l hopen := by
    obtain ⟨info, hlookup⟩ := h.registered l hopen
    exact ⟨info.noPlayers, Depot.getRooms_of_get hlookup, hkeyed _ _ hlookup⟩
  limited := by
    rw [← List.length_map, hkeyed.getRooms_names]
    exact hlength

/-- In every run the answer to `GetRooms` lists the rooms that are open. -/
theorem lists_run (ipBackend : String) (portBackend : Int) (as : List ServerAction) :
    (Machine.run step (start ipBackend portBackend) as).Lists
      (Machine.run step (start ipBackend portBackend) as).depot.getRooms := by
  obtain ⟨hregistry, hkeyed, hlength⟩ := Machine.run_keeps
    (P := fun σ : Server => Registry σ ∧ Keyed σ ∧ σ.depot.lobbies.keys.length ≤ lobbiesMaxNumber)
    (fun _ action h => ⟨h.1.step action, h.2.1.step h.1 action, step_length h.2.2 action⟩)
    ⟨Registry.start ipBackend portBackend, keyed_start ipBackend portBackend, Nat.zero_le _⟩ as
  exact hregistry.lists hkeyed hlength

end Server

/-- Who has asked for the rooms that a reply lists. -/
def FrontendReply.asker : FrontendReply → Option Address
  | .rooms _ remote => some remote
  | _ => none

/-- Who asks for the rooms. -/
def FrontendMail.asker : FrontendMail → Option Address
  | .datagram (some .getRooms) remote => some remote
  | _ => none

/-- Whose request for the rooms comes in. -/
def EntranceAction.asker : EntranceAction → Option Address
  | .datagram raw remote => (FrontendMail.datagram raw remote).asker
  | _ => none

namespace Frontend

variable {clientsCounter : Int} {d : Depot} {mail : FrontendMail}

/-- A request is answered with one list, and nothing else is. -/
theorem receive_asker : (receive clientsCounter d mail).replies.filterMap FrontendReply.asker = mail.asker.toList := by
  cases mail with
  | connected c =>
    unfold receive connected
    dsimp only
    split
    · rfl
    · rfl
  | clientDisconnected => rfl
  | datagram raw remote =>
    cases raw with
    | none => rfl
    | some datagram =>
      cases datagram with
      | getRooms => rfl
      | greeting => rfl

/-- The list is what the registry reports. -/
theorem receive_rooms {rooms : List RoomInfo} {remote : Address}
    (h : .rooms rooms remote ∈ (receive clientsCounter d mail).replies) : rooms = d.getRooms := by
  cases mail with
  | connected c =>
    unfold receive connected at h
    dsimp only at h
    split at h
    · cases List.mem_singleton.mp h
    · rcases List.mem_cons.mp h with h | h
      · cases h
      · cases List.mem_singleton.mp h
  | clientDisconnected => cases h
  | datagram raw remote' =>
    cases raw with
    | none => cases h
    | some datagram =>
      cases datagram with
      | getRooms =>
        cases List.mem_singleton.mp h
        rfl
      | greeting => cases h

end Frontend

namespace Entrance

variable {σ : Entrance}

/-! ### The actors behind it -/

/-- What a step has the client actors and the rooms take. -/
def admits (σ : Entrance) : EntranceAction → List ServerAction
  | .received c raw => if c ∈ σ.handlers then [.received c raw] else []
  | .closed c => if c ∈ σ.handlers ∧ (σ.server.clients c).stopped = false then [.closed c] else []
  | .handle l answer => [.handle l answer]
  | _ => []

theorem turn_server : σ.turn.server = σ.server := by
  unfold turn
  split
  · rfl
  · rfl

/-- A step on a condition has the actors take one action, or none. -/
theorem server_ite {p : Prop} [Decidable p] {τ : Entrance} {a : ServerAction} (h : τ.server = σ.server.step a) :
    (if p then τ else σ).server = Machine.run Server.step σ.server (if p then [a] else []) := by
  split
  · exact h
  · rfl

theorem step_server (σ : Entrance) (action : EntranceAction) :
    (σ.step action).server = Machine.run Server.step σ.server (σ.admits action) := by
  cases action with
  | connect c => exact (apply_ite server _ _ _).trans (ite_self _)
  | datagram raw remote => rfl
  | turn => exact turn_server
  | received c raw => exact server_ite rfl
  | closed c => exact server_ite rfl
  | handle l answer => rfl

/-- Behind the frontend actor there is a run of the server alone, so what holds in every run of the server holds
    here. -/
theorem server_run (ipBackend : String) (portBackend : Int) (actions : List EntranceAction) :
    (Machine.run step (start ipBackend portBackend) actions).server =
      Machine.run Server.step (Server.start ipBackend portBackend)
        (Machine.outputs step admits (start ipBackend portBackend) actions) :=
  Machine.run_inner step_server

/-! ### The answers -/

/-- What a step has the frontend actor send. -/
def sends (σ : Entrance) : EntranceAction → List FrontendReply
  | .turn => σ.mailbox.head?.toList.flatMap fun mail => (Frontend.receive σ.clientsCounter σ.server.depot mail).replies
  | _ => []

/-- A step that sends nothing on either side of its condition. -/
theorem replies_ite {p : Prop} [Decidable p] {τ τ' : Entrance} (h : τ.replies = σ.replies)
    (h' : τ'.replies = σ.replies) : (if p then τ else τ').replies = σ.replies ++ [] := by
  rw [List.append_nil]
  split
  · exact h
  · exact h'

theorem step_replies (σ : Entrance) (action : EntranceAction) :
    (σ.step action).replies = σ.replies ++ σ.sends action := by
  cases action with
  | turn =>
    unfold step turn sends
    cases hmailbox : σ.mailbox with
    | nil => exact (List.append_nil _).symm
    | cons mail rest => simp
  | connect c => exact replies_ite rfl rfl
  | received c raw => exact replies_ite rfl rfl
  | closed c => exact replies_ite rfl rfl
  | datagram raw remote => exact (List.append_nil _).symm
  | handle l answer => exact (List.append_nil _).symm

/-- The addresses that lists of rooms have been sent to. -/
def answered (σ : Entrance) : List Address := σ.replies.filterMap FrontendReply.asker

/-- The addresses of the requests that the actor has not come to. -/
def asking (σ : Entrance) : List Address := σ.mailbox.filterMap FrontendMail.asker

/-- Each request is one that waits, until it is one that has been answered. -/
theorem step_asked (σ : Entrance) (action : EntranceAction) :
    (σ.step action).answered ++ (σ.step action).asking = σ.answered ++ σ.asking ++ action.asker.toList := by
  -- What is posted comes last.
  have posted (mail : FrontendMail) : (σ.mailbox ++ [mail]).filterMap FrontendMail.asker =
      σ.asking ++ mail.asker.toList := by
    rw [List.filterMap_append, asking]
    cases hasker : mail.asker <;> simp [hasker]
  have same : σ.answered ++ σ.asking = σ.answered ++ σ.asking ++ (none : Option Address).toList :=
    (List.append_nil _).symm
  cases action with
  | connect c =>
    unfold step connect
    dsimp only
    split
    · exact same
    · exact (congrArg (σ.answered ++ ·) (posted (.connected c))).trans (List.append_assoc _ _ _).symm
  | datagram raw remote =>
    exact (congrArg (σ.answered ++ ·) (posted (.datagram raw remote))).trans (List.append_assoc _ _ _).symm
  | turn =>
    have hreplies : σ.turn.replies = σ.replies ++ σ.sends .turn := σ.step_replies .turn
    cases hmailbox : σ.mailbox with
    | nil =>
      have hsame : σ.turn = σ := by
        unfold turn
        rw [hmailbox]
      rw [step, hsame]
      exact same
    | cons mail rest =>
      have hrest : σ.turn.mailbox = rest := by
        unfold turn
        rw [hmailbox]
      -- The first in the mailbox is answered, if it is a request, and is no longer one that waits.
      rw [step, answered, asking, answered, asking, hreplies, hrest, hmailbox, sends, hmailbox]
      simp only [List.head?_cons, Option.toList_some, List.flatMap_singleton, List.filterMap_append,
        Frontend.receive_asker]
      cases hasker : mail.asker <;> simp [hasker, EntranceAction.asker]
  | received c raw =>
    unfold step received
    dsimp only
    split
    · exact same
    · exact same
  | closed c =>
    unfold step closed
    dsimp only
    split
    · exact (congrArg (σ.answered ++ ·) (posted .clientDisconnected)).trans (List.append_assoc _ _ _).symm
    · exact same
  | handle l answer => exact same

/-- A list of rooms that a step has sent is the answer of the registry. -/
theorem rooms_of_sends {action : EntranceAction} {rooms : List RoomInfo} {remote : Address}
    (h : .rooms rooms remote ∈ σ.sends action) : rooms = σ.server.depot.getRooms := by
  cases action with
  | turn =>
    obtain ⟨mail, -, hmem⟩ := List.mem_flatMap.mp h
    exact Frontend.receive_rooms hmem
  | connect | datagram | received | closed | handle => cases h

/-- Whatever comes in, in whatever order: each `GetRooms` is answered once, in the order in which they came, or still
    waits in the mailbox; and each list that has been sent lists the rooms that were open when it was made. -/
theorem rooms_listed (ipBackend : String) (portBackend : Int) (actions : List EntranceAction) :
    let σ := Machine.run step (start ipBackend portBackend) actions
    σ.answered ++ σ.asking = actions.filterMap EntranceAction.asker ∧
      ∀ rooms remote, .rooms rooms remote ∈ σ.replies → ∃ pre, pre <+: actions ∧
        (Machine.run step (start ipBackend portBackend) pre).server.Lists rooms := by
  constructor
  · rw [Machine.run_log (L := fun σ : Entrance => σ.answered ++ σ.asking) step_asked, Machine.outputs_actions,
      List.filterMap_eq_flatMap_toList]
    rfl
  · intro rooms remote hmem
    rw [Machine.run_log step_replies] at hmem
    have hsent : .rooms rooms remote ∈ Machine.outputs step sends (start ipBackend portBackend) actions := hmem
    obtain ⟨pre, action, suf, rfl, hsends⟩ := Machine.mem_outputs.mp hsent
    refine ⟨pre, List.prefix_append _ _, ?_⟩
    rw [rooms_of_sends hsends, server_run]
    exact Server.lists_run ipBackend portBackend _

end Entrance

end MultiSlider
