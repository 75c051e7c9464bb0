import MultiSlider.Lobby.Registry

/-! Who may act as the host. A run is compared with the one in which every message that is the host's to send,
    and that somebody else sent, is removed from its mailbox before it is handled. -/

namespace MultiSlider

/-- The messages that are the host's to send. -/
def LobbyMessage.ofHost : LobbyMessage → Bool
  | .close => true
  | .json (some (.startSession _)) => true
  | .json (some (.ejectPlayer _)) => true
  | .json (some (.reconfigure _ _)) => true
  | _ => false

/-- The messages that a running actor obeys without a look at their sender: `Close`, and `StartSession` if the
    backend answers with a session. -/
def LobbyMessage.Unguarded (answer : Option Int) : LobbyMessage → Prop
  | .close => True
  | .json (some (.startSession _)) => ∃ sessionId ∈ answer, sessionId ≥ 0
  | _ => False

instance (answer : Option Int) (m : LobbyMessage) : Decidable (m.Unguarded answer) := by
  unfold LobbyMessage.Unguarded
  split <;> infer_instance

theorem LobbyMessage.Unguarded.ofHost {m : LobbyMessage} {answer : Option Int} (h : m.Unguarded answer) :
    m.ofHost = true := by
  unfold Unguarded at h
  split at h
  · rfl
  · rfl
  · exact h.elim

/-- A plain answer, which only its receiver sees and which says nothing about a room. -/
def TcpPayload.isText : TcpPayload → Bool
  | .text _ => true
  | _ => false

namespace LobbyActor2

variable {a : LobbyActor2} {d : Depot} {sender : Connection} {self : LobbyRef} {answer : Option Int}

/-- Nobody but the host has the actor do what is the host's, except by the messages that are not checked. -/
theorem receive_foreign {m : LobbyMessage} (d : Depot) (self : LobbyRef) (hof : m.ofHost = true)
    (hforeign : ∀ host ∈ a.getHost, host.actor ≠ sender)
    (hguarded : a.behaviour = .running → ¬m.Unguarded answer) :
    ∃ writes, a.receive d sender self answer m = ⟨a, d, writes, []⟩ ∧ ∀ w ∈ writes, w.payload.isText = true := by
  have htext : ∀ w ∈ [Write.mk sender (.text responseSuck)], w.payload.isText = true := by
    intro w hw
    rw [List.mem_singleton.mp hw]
    rfl
  unfold LobbyMessage.ofHost at hof
  cases hbehaviour : a.behaviour with
  | initial =>
    refine ⟨[], ?_, List.forall_mem_nil _⟩
    unfold receive
    rw [hbehaviour]
    split at hof <;> first | rfl | cases hof
  | zombie =>
    refine ⟨[], ?_, List.forall_mem_nil _⟩
    unfold receive
    rw [hbehaviour]
    split at hof <;> first | rfl | cases hof
  | running =>
    have hunchecked := hguarded hbehaviour
    unfold receive
    rw [hbehaviour]
    split at hof
    · exact absurd trivial hunchecked
    · rename_i data
      -- `StartSession` has the room launch only with an answer of the backend, which is not checked.
      show ∃ writes, a.startSession d sender answer data = _ ∧ _
      unfold startSession
      split
      · rename_i sessionId
        split
        · rename_i hsession
          exact absurd ⟨sessionId, rfl, hsession⟩ hunchecked
        · exact ⟨_, rfl, htext⟩
      · exact ⟨_, rfl, htext⟩
    · rename_i playerName
      -- The host's rights are checked where there is a host, and there the sender is refused in silence.
      show ∃ writes, a.eject d sender playerName = _ ∧ _
      unfold eject
      split
      · rename_i host hhost
        rw [if_neg fun hby => hforeign host hhost hby.1]
        exact ⟨[], rfl, List.forall_mem_nil _⟩
      · exact ⟨_, rfl, htext⟩
    · rename_i newLimit newReserved
      show ∃ writes, a.reconfigure d sender (toInt newLimit) (toInt newReserved) = _ ∧ _
      unfold reconfigure
      split
      · rename_i host hhost
        rw [if_neg (hforeign host hhost)]
        exact ⟨[], rfl, List.forall_mem_nil _⟩
      · exact ⟨_, rfl, htext⟩
    · cases hof

/-- Whoever sends a message that is not checked, the actor stops, or somebody is told of a session. -/
theorem receive_unguarded {m : LobbyMessage} (d : Depot) (sender : Connection) (self : LobbyRef)
    (hrunning : a.behaviour = .running) (hplayers : a.players ≠ []) (h : m.Unguarded answer) :
    (a.receive d sender self answer m).lobby.stopped = true ∨
      ∃ w ∈ (a.receive d sender self answer m).writes, w.payload.isText = false := by
  unfold receive
  rw [hrunning]
  unfold LobbyMessage.Unguarded at h
  split at h
  · exact Or.inl rfl
  · rename_i data
    obtain ⟨sessionId, hanswer, hsession⟩ := h
    refine Or.inr ?_
    show ∃ w ∈ (a.startSession d sender answer data).writes, _
    unfold startSession
    rw [Option.mem_def.mp hanswer]
    dsimp only
    rw [if_pos hsession]
    obtain ⟨player, hplayer⟩ := List.exists_mem_of_ne_nil _ hplayers
    exact ⟨_, List.mem_map.mpr ⟨player, hplayer, rfl⟩, rfl⟩
  · exact h.elim

end LobbyActor2

namespace Server

/-- The next message of the room is the host's to send, and somebody else sent it. -/
def Foreign (σ : Server) (l : LobbyRef) : Prop :=
  ∃ mail ∈ (σ.rooms l).mailbox.head?, mail.message.ofHost = true ∧
    ∀ host ∈ (σ.rooms l).actor.getHost, host.actor ≠ mail.sender

instance (σ : Server) (l : LobbyRef) : Decidable (σ.Foreign l) := by
  unfold Foreign
  infer_instance

/-- The next message of the room is removed. -/
def drop (σ : Server) (l : LobbyRef) : Server :=
  { σ with rooms := Function.update σ.rooms l ⟨(σ.rooms l).actor, (σ.rooms l).mailbox.tail⟩ }

/-- One action of the server that removes such messages. -/
def pruned (σ : Server) : ServerAction → Server
  | .received c raw => σ.step (.received c raw)
  | .closed c => σ.step (.closed c)
  | .handle l answer => if σ.Foreign l then σ.drop l else σ.step (.handle l answer)

/-- All that a run leaves, except for the plain answers. -/
def evolution (σ : Server) : Server := { σ with sent := σ.sent.filter fun w => !w.payload.isText }

/-- A room that is open handles a message that is not checked only if it comes from its host. -/
def HostOnly (σ : Server) : ServerAction → Prop
  | .handle l answer => ∀ mail ∈ (σ.rooms l).mailbox.head?, (σ.rooms l).actor.behaviour = .running →
    mail.message.Unguarded answer → ∃ host ∈ (σ.rooms l).actor.getHost, host.actor = mail.sender
  | _ => True

variable {σ τ : Server} {l : LobbyRef} {answer : Option Int}

theorem evolution_rooms (h : σ.evolution = τ.evolution) : σ.rooms = τ.rooms := by
  have hrooms : σ.evolution.rooms = τ.evolution.rooms := by rw [h]
  exact hrooms

theorem drop_room : (σ.drop l).rooms l = ⟨(σ.rooms l).actor, (σ.rooms l).mailbox.tail⟩ := Function.update_self l _ _

/-- The plain answers so far have no influence on what follows. -/
theorem evolution_step (h : σ.evolution = τ.evolution) (action : ServerAction) :
    (σ.step action).evolution = (τ.step action).evolution := by
  obtain ⟨depot, clients, rooms, created, sent⟩ := σ
  obtain ⟨depot', clients', rooms', created', sent'⟩ := τ
  simp only [evolution, mk.injEq] at h
  obtain ⟨rfl, rfl, rfl, rfl, hsent⟩ := h
  cases action with
  | received c raw => simp only [step, turn, forward, evolution, List.filter_append, hsent]
  | closed c => simp only [step, turn, forward, evolution, List.filter_append, hsent]
  | handle l answer => simp only [step, handle, evolution, List.filter_append, hsent]

theorem evolution_drop (h : σ.evolution = τ.evolution) : (σ.drop l).evolution = (τ.drop l).evolution := by
  obtain ⟨depot, clients, rooms, created, sent⟩ := σ
  obtain ⟨depot', clients', rooms', created', sent'⟩ := τ
  simp only [evolution, mk.injEq] at h
  obtain ⟨rfl, rfl, rfl, rfl, hsent⟩ := h
  simp only [drop, evolution, hsent]

/-- A message of the host's that somebody else sent might as well be removed, exactly if it is checked. -/
theorem foreign_iff (hregistry : Registry σ) (hforeign : σ.Foreign l) :
    (σ.handle l answer).evolution = (σ.drop l).evolution ↔ HostOnly σ (.handle l answer) := by
  obtain ⟨mail, hhead, hof, hother⟩ := hforeign
  obtain ⟨rest, hmailbox⟩ : ∃ rest, (σ.rooms l).mailbox = mail :: rest := List.head?_eq_some_iff.mp hhead
  have hlive := hregistry.live hmailbox
  simp only [HostOnly, hmailbox, List.head?_cons, Option.mem_def, Option.some.injEq, forall_eq']
  constructor
  · intro heq hrunning hunguarded
    exfalso
    -- An unchecked message stops the room or is answered to the players, which the run without it does not show.
    rcases LobbyActor2.receive_unguarded σ.depot mail.sender l hrunning
      (hregistry.inhabited l ⟨hrunning, hlive⟩) hunguarded with hstops | ⟨w, hw, hplain⟩
    · have hroom := congrFun (evolution_rooms heq) l
      rw [handle_room hmailbox, drop_room, Room.mk.injEq] at hroom
      rw [hroom.1, hlive] at hstops
      cases hstops
    · have hsent : (σ.handle l answer).evolution.sent = (σ.drop l).evolution.sent := congrArg Server.sent heq
      simp only [evolution, drop, handle_sent hmailbox, List.filter_append, List.append_right_eq_self] at hsent
      exact List.filter_eq_nil_iff.mp hsent w hw (by rw [hplain]; rfl)
  · intro hhost
    obtain ⟨writes, hreceive, htext⟩ := LobbyActor2.receive_foreign σ.depot l hof hother
      fun hrunning hunguarded => by
        obtain ⟨host, hhead, hsame⟩ := hhost hrunning hunguarded
        exact hother host hhead hsame
    -- What is left are plain answers, which the evolution leaves out.
    have hsent : writes.filter (fun w => !w.payload.isText) = [] := by
      refine List.filter_eq_nil_iff.mpr fun w hw => ?_
      rw [htext w hw]
      exact Bool.false_ne_true
    have heq : σ.handle l answer = { σ.drop l with sent := σ.sent ++ writes } := by
      unfold handle Room.handle drop
      rw [hmailbox]
      dsimp only
      rw [hreceive]
      simp [hlive]
    rw [heq]
    simp only [evolution, drop, List.filter_append, hsent, List.append_nil]

/-- In every run, and for every initial part of it: the messages of the host's that others sent might as well
    have been removed, exactly if none of those that are not checked was handled by an open room. -/
theorem pruned_iff (ipBackend : String) (portBackend : Int) (as : List ServerAction) :
    (∀ pre, pre <+: as → (Machine.run step (start ipBackend portBackend) pre).evolution =
        (Machine.run pruned (start ipBackend portBackend) pre).evolution) ↔
      Machine.Along step HostOnly (start ipBackend portBackend) as := by
  refine Machine.related_iff_along (R := fun σ τ : Server => σ.evolution = τ.evolution)
    (fun _ action h => h.step action) (fun σ τ action hregistry heq => ?_) (Registry.start ipBackend portBackend) rfl
  cases action with
  | received c raw => exact iff_of_true (evolution_step heq _) trivial
  | closed c => exact iff_of_true (evolution_step heq _) trivial
  | handle l answer =>
    have hsame : τ.Foreign l ↔ σ.Foreign l := by
      unfold Foreign
      rw [evolution_rooms heq]
    simp only [pruned]
    by_cases hforeign : σ.Foreign l
    · rw [if_pos (hsame.mpr hforeign), ← evolution_drop heq]
      exact foreign_iff hregistry hforeign
    · rw [if_neg fun h => hforeign (hsame.mp h)]
      refine iff_of_true (evolution_step heq _) fun mail hmail _ hunguarded => ?_
      by_contra hnone
      exact hforeign ⟨mail, hmail, hunguarded.ofHost, fun host hhost hsender => hnone ⟨host, hhost, hsender⟩⟩

/-- A client whose `Join` was refused closes the room. -/
theorem refused_client_closes :
    let as : List ServerAction := [.received 0 (some (.createRoom "a" "R" "" 1 0 "")), .handle 0 none,
      .received 1 (some (.joinRoom "b" "R")), .handle 0 none, .received 1 (some .closeRoom), .handle 0 none]
    let σ := Machine.run step (start "localhost" 8700) as
    let τ := Machine.run pruned (start "localhost" 8700) as
    (σ.rooms 0).actor.players = [⟨0, "a", false⟩] ∧ (σ.rooms 0).actor.stopped = true ∧
      (τ.rooms 0).Open ∧ σ.evolution ≠ τ.evolution := by
  intro as σ τ
  have hstopped : (σ.rooms 0).actor.stopped = true := by decide +kernel
  have hopen : (τ.rooms 0).Open := by decide +kernel
  refine ⟨by decide +kernel, hstopped, hopen, fun heq => ?_⟩
  have hroom := congrFun (evolution_rooms heq) 0
  rw [hroom] at hstopped
  cases hstopped.symm.trans hopen.2

end Server

end MultiSlider
