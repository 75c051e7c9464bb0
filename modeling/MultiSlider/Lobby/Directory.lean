import Mathlib.Data.Set.Card
import MultiSlider.Lobby.Registry

/-! The registry is exactly the set of the rooms that are open. Names come back and a refused `Init` leaves a
    zombie with the name of a live room, but an actor writes no entry other than its own. -/

namespace MultiSlider

namespace Server

/-- An entry is there exactly if its handler is an open room of this name. So no two open rooms share a name,
    no action changes an entry unless it is the handler's own, and the rooms are no more than the registry has
    place for. -/
structure Directory (σ : Server) : Prop where
  listed : ∀ roomName l, (∃ info, σ.depot.get roomName = some ⟨l, info⟩) ↔
    (σ.rooms l).Open ∧ (σ.rooms l).actor.name = roomName
  distinct : ∀ l l', (σ.rooms l).Open → (σ.rooms l').Open → (σ.rooms l).actor.name = (σ.rooms l').actor.name → l = l'
  undisturbed : ∀ action roomName l info, σ.depot.get roomName = some ⟨l, info⟩ →
    (∀ answer, action ≠ .handle l answer) →
    (σ.step action).depot.get roomName = some ⟨l, info⟩
  limited : {l | (σ.rooms l).Open}.encard ≤ lobbiesMaxNumber

variable {σ : Server} {l : LobbyRef} {answer : Option Int}

/-- What a message does to the number of entries. -/
theorem handle_length (h : σ.depot.lobbies.keys.length ≤ lobbiesMaxNumber) :
    (σ.handle l answer).depot.lobbies.keys.length ≤ lobbiesMaxNumber := by
  cases hmailbox : (σ.rooms l).mailbox with
  | nil =>
    rw [handle_idle hmailbox]
    exact h
  | cons mail rest =>
    rw [handle_depot hmailbox]
    rcases LobbyActor2.receive_depot (σ.rooms l).actor σ.depot mail.sender l answer mail.message with
      hdepot | ⟨room, hdepot⟩ | hdepot | ⟨room, hdepot⟩
    · rw [hdepot]
      exact h
    · rw [hdepot]
      exact Depot.updateRoomInfo_length h
    · rw [hdepot]
      exact Depot.unregisterLobby_length h
    · rw [hdepot]
      exact Depot.registerLobby_length h

theorem step_length (h : σ.depot.lobbies.keys.length ≤ lobbiesMaxNumber) (action : ServerAction) :
    (σ.step action).depot.lobbies.keys.length ≤ lobbiesMaxNumber := by
  cases action with
  | handle l answer => exact handle_length h
  | _ => exact h

theorem Registry.distinct (h : Registry σ) {l l' : LobbyRef} (hopen : (σ.rooms l).Open) (hopen' : (σ.rooms l').Open)
    (hname : (σ.rooms l).actor.name = (σ.rooms l').actor.name) : l = l' := by
  obtain ⟨info, hlookup⟩ := h.registered l hopen
  obtain ⟨info', hlookup'⟩ := h.registered l' hopen'
  rw [hname, hlookup'] at hlookup
  cases hlookup
  rfl

/-- The entries of other handlers are as they were. -/
theorem Registry.undisturbed (h : Registry σ) {action : ServerAction} {roomName : String} {info : RoomInfo}
    (hlookup : σ.depot.get roomName = some ⟨l, info⟩) (hother : ∀ answer, action ≠ .handle l answer) :
    (σ.step action).depot.get roomName = some ⟨l, info⟩ := by
  cases action with
  | received c raw => exact hlookup
  | closed c => exact hlookup
  | handle l' answer =>
    have hl : l ≠ l' := fun heq => hother answer (by rw [heq])
    rw [Server.step]
    cases hmailbox : (σ.rooms l').mailbox with
    | nil => rwa [handle_idle hmailbox]
    | cons mail rest =>
      rw [handle_depot hmailbox]
      exact (h.published hmailbox answer).kept l hl roomName info hlookup

/-- The open rooms have names of their own among the keys. -/
theorem Registry.limited (h : Registry σ) (hlength : σ.depot.lobbies.keys.length ≤ lobbiesMaxNumber) :
    {l | (σ.rooms l).Open}.encard ≤ lobbiesMaxNumber := by
  have hmaps : Set.MapsTo (fun l => (σ.rooms l).actor.name) {l | (σ.rooms l).Open}
      (σ.depot.lobbies.keys.toFinset : Set String) := by
    intro l hopen
    obtain ⟨info, hlookup⟩ := h.registered l hopen
    exact Finset.mem_coe.mpr (List.mem_toFinset.mpr (Depot.mem_keys.mpr ⟨_, hlookup⟩))
  have hinjective : Set.InjOn (fun l => (σ.rooms l).actor.name) {l | (σ.rooms l).Open} :=
    fun _ hopen _ hopen' hname => h.distinct hopen hopen' hname
  refine (Set.encard_le_encard_of_injOn hmaps hinjective).trans ?_
  rw [Set.encard_coe_eq_coe_finsetCard]
  exact Nat.cast_le.mpr ((List.toFinset_card_le _).trans hlength)

theorem Registry.directory (h : Registry σ) (hlength : σ.depot.lobbies.keys.length ≤ lobbiesMaxNumber) :
    Directory σ where
  listed roomName l := by
    constructor
    · rintro ⟨info, hlookup⟩
      exact h.own roomName _ hlookup
    · rintro ⟨hopen, rfl⟩
      exact h.registered l hopen
  distinct _ _ := h.distinct
  undisturbed _ _ _ _ := h.undisturbed
  limited := h.limited hlength

/-- In every state of every run, the registry is the set of the open rooms. -/
theorem directory_always (ipBackend : String) (portBackend : Int) (as : List ServerAction) :
    Machine.Always step Directory (start ipBackend portBackend) as := by
  have hlimited : Machine.Always step (fun σ => Registry σ ∧ σ.depot.lobbies.keys.length ≤ lobbiesMaxNumber)
      (start ipBackend portBackend) as :=
    Machine.always_keeps (fun _ action h => ⟨h.1.step action, step_length h.2 action⟩)
      ⟨Registry.start ipBackend portBackend, Nat.zero_le _⟩ as
  exact hlimited.imp fun _ h => h.1.directory h.2

end Server

end MultiSlider
