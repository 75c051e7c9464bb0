import MultiSlider.Lib.OrderedMap
import MultiSlider.Lobby.Message

/-! The registry of the lobbies that are open (`Depot.scala`). -/

namespace MultiSlider

/-- A lobby with its actor. -/
structure LobbyStats where
  handler : LobbyRef
  info : RoomInfo
deriving DecidableEq, Repr

/-- `m_lobbies`, from lobby names, and the address of the backend. -/
structure Depot where
  lobbies : AList fun _ : String => LobbyStats
  ipBackend : String
  portBackend : Int

/-- Max number of lobbies can be created. -/
def lobbiesMaxNumber : Nat := 256

/-- What `registerLobby` returns. -/
inductive Status where
  | succ
  | suck
  | roomExists
deriving DecidableEq, Repr

namespace Depot

/-- The registry without lobbies. -/
def create (ipBackend : String) (portBackend : Int) : Depot := ⟨∅, ipBackend, portBackend⟩

variable (d : Depot)

/-- `registerLobby`: a name that is taken is refused before the number of lobbies is looked at. -/
def registerLobby (handler : LobbyRef) (info : RoomInfo) : Depot × Status :=
  if info.name ∈ d.lobbies then (d, .roomExists)
  else if d.lobbies.keys.length ≥ lobbiesMaxNumber then (d, .suck)
  else ({ d with lobbies := d.lobbies.insert info.name ⟨handler, info⟩ }, .succ)

/-- The lobby of this name. -/
def get (roomName : String) : Option LobbyStats := d.lobbies.lookup roomName

/-- `unregisterLobby`; a name that is not there changes nothing. -/
def unregisterLobby (roomName : String) : Depot := { d with lobbies := d.lobbies.erase roomName }

/-- `updateRoomInfo`; nobody reads its result. -/
def updateRoomInfo (roomName : String) (info : RoomInfo) : Depot :=
  match d.get roomName with
  | some old => { d with lobbies := d.lobbies.insert roomName ⟨old.handler, info⟩ }
  | none => d

/-- The answer to `GetRooms`, up to its order. -/
def getRooms : List RoomInfo := d.lobbies.entries.map fun e => e.2.info.noPlayers

variable {d : Depot} {name name' : String} {info : RoomInfo} {handler : LobbyRef}

@[simp] theorem get_create {ipBackend : String} {portBackend : Int} : (create ipBackend portBackend).get name = none :=
  AList.lookup_empty name

theorem get_insert {stats : LobbyStats} : ({ d with lobbies := d.lobbies.insert name stats } : Depot).get name' =
    if name' = name then some stats else d.get name' := by
  unfold get
  split
  · rename_i heq
    rw [heq]
    exact AList.lookup_insert d.lobbies
  · rename_i hne
    exact AList.lookup_insert_ne hne

/-- What `registerLobby` does when it succeeds. -/
theorem registerLobby_succ {d' : Depot} (h : d.registerLobby handler info = (d', .succ)) :
    d.get info.name = none ∧
      ∀ roomName, d'.get roomName = if roomName = info.name then some ⟨handler, info⟩ else d.get roomName := by
  unfold registerLobby at h
  split at h
  · cases h
  · rename_i hnew
    split at h
    · cases h
    · cases h
      exact ⟨AList.lookup_eq_none.mpr hnew, fun roomName => get_insert⟩

theorem registerLobby_fail {d' : Depot} {status : Status} (h : d.registerLobby handler info = (d', status))
    (hfail : status ≠ .succ) : d' = d := by
  unfold registerLobby at h
  split at h
  · cases h
    rfl
  · split at h
    · cases h
      rfl
    · cases h
      exact absurd rfl hfail

theorem get_unregisterLobby : (d.unregisterLobby name).get name' = if name' = name then none else d.get name' := by
  unfold unregisterLobby get
  split
  · rename_i heq
    rw [heq]
    exact AList.lookup_erase name d.lobbies
  · rename_i hne
    exact AList.lookup_erase_ne hne

theorem get_updateRoomInfo : (d.updateRoomInfo name info).get name' =
    if name' = name then (d.get name).map fun old => ⟨old.handler, info⟩ else d.get name' := by
  unfold updateRoomInfo
  cases hold : d.get name with
  | none =>
    dsimp only
    split
    · rename_i heq
      rw [heq, hold]
      rfl
    · rfl
  | some old => exact get_insert

/-- What `GetRooms` reports stems from an entry. -/
theorem mem_getRooms {listed : RoomInfo} (h : listed ∈ d.getRooms) :
    ∃ roomName stats, d.get roomName = some stats ∧ listed = stats.info.noPlayers := by
  obtain ⟨⟨roomName, stats⟩, hentry, rfl⟩ := List.mem_map.mp h
  exact ⟨roomName, stats, AList.mem_lookup_iff.mpr hentry, rfl⟩

theorem getRooms_of_get {stats : LobbyStats} (h : d.get name = some stats) : stats.info.noPlayers ∈ d.getRooms :=
  List.mem_map.mpr ⟨⟨name, stats⟩, AList.mem_lookup_iff.mp h, rfl⟩

/-- A change of the registry that keeps to the maximal number of lobbies. -/
theorem registerLobby_length (h : d.lobbies.keys.length ≤ lobbiesMaxNumber) :
    (d.registerLobby handler info).1.lobbies.keys.length ≤ lobbiesMaxNumber := by
  unfold registerLobby
  split
  · exact h
  · rename_i hnew
    split
    · exact h
    · rename_i hspace
      rw [AList.mem_keys] at hnew
      rw [AList.keys_insert, List.erase_of_not_mem hnew, List.length_cons]
      exact Nat.lt_of_not_le hspace

theorem unregisterLobby_length (h : d.lobbies.keys.length ≤ lobbiesMaxNumber) :
    (d.unregisterLobby name).lobbies.keys.length ≤ lobbiesMaxNumber := by
  unfold unregisterLobby
  rw [AList.keys_erase]
  exact Nat.le_trans List.length_erase_le h

theorem updateRoomInfo_length (h : d.lobbies.keys.length ≤ lobbiesMaxNumber) :
    (d.updateRoomInfo name info).lobbies.keys.length ≤ lobbiesMaxNumber := by
  unfold updateRoomInfo
  split
  · rename_i old hold
    have hmem : name ∈ d.lobbies.keys := AList.lookup_isSome.mp (Option.isSome_of_mem hold)
    rw [AList.keys_insert, List.length_cons, List.length_erase_of_mem hmem]
    have := List.length_pos_of_mem hmem
    omega
  · exact h

theorem mem_keys : name ∈ d.lobbies.keys ↔ ∃ stats, d.get name = some stats := by
  rw [← AList.mem_keys, ← AList.lookup_isSome, Option.isSome_iff_exists]
  rfl

end Depot

end MultiSlider
