import MultiSlider.Lobby.Registry
import MultiSlider.Lobby.Wired

/-! What `Lobby::receive` makes of the messages on its connection. It knows the messages of a room; a plain answer
    and a room description are for a call that waits for them, and where no call does they stop it. -/

namespace MultiSlider

/-! ### What the server writes -/

namespace LobbyActor2

variable {a : LobbyActor2} {d : Depot} {sender : Connection} {self : LobbyRef} {answer : Option Int} {m : LobbyMessage}

/-- The actor answers the message with a plain answer or a room description: an `Init`, a `Join`, what is no
    message, and a `StartSession` without a session. -/
def AnswersPlainly (a : LobbyActor2) (answer : Option Int) (m : LobbyMessage) : Bool :=
  match a.behaviour, m with
  | .initial, .init .. => true
  | .running, .join _ => true
  | .running, .json none => true
  | .running, .json (some (.startSession _)) => !answer.any (0 ≤ ·)
  | _, _ => false

/-- Whether the writes are one plain answer, to the sender, or all known to `receive`. -/
def Replies (sender : Connection) (plain : Bool) (writes : List Write) : Prop :=
  if plain then ∃ payload, writes = [⟨sender, payload⟩] ∧ payload.known = false
  else ∀ w ∈ writes, w.payload.known = true

theorem join_replies (playerName : String) : Replies sender true (a.join d sender playerName).writes := by
  unfold join
  split
  · split
    · dsimp only
      split
      · exact ⟨_, rfl, rfl⟩
      · rename_i hnone
        simp [makeRoomInfo_eq_none] at hnone
    · exact ⟨_, rfl, rfl⟩
  · exact ⟨_, rfl, rfl⟩

theorem init_replies (hostName roomName description : String) (playersLimit playersReserved : Int)
    (userParam : String) : Replies sender true
      (a.init d sender self hostName roomName description playersLimit playersReserved userParam).writes := by
  unfold init
  dsimp only
  split
  · split
    · exact ⟨_, rfl, rfl⟩
    · exact ⟨_, rfl, rfl⟩
    · exact ⟨_, rfl, rfl⟩
  · rename_i hnone
    simp [makeRoomInfo_eq_none] at hnone

theorem startSession_replies (data : String) :
    Replies sender (!answer.any (0 ≤ ·)) (a.startSession d sender answer data).writes := by
  unfold startSession
  split
  · rename_i sessionId
    split
    · rename_i hsession
      simp only [Option.any_some, decide_eq_true hsession, Bool.not_true]
      intro w hw
      obtain ⟨player, -, rfl⟩ := List.mem_map.mp hw
      rfl
    · rename_i hsession
      simp only [Option.any_some, decide_eq_false hsession, Bool.not_false]
      exact ⟨_, rfl, rfl⟩
  · exact ⟨_, rfl, rfl⟩

theorem eject_replies (hplayers : a.players ≠ []) (playerName : String) :
    Replies sender false (a.eject d sender playerName).writes := by
  unfold eject
  split
  · rename_i host hhost
    split
    · rename_i hby
      split
      · rename_i player hfind
        dsimp only
        split
        · exact List.forall_mem_singleton.mpr rfl
        · rename_i hnone
          exact absurd (makeRoomInfo_eq_none.mp hnone) (host_stays hhost hby.2 hfind)
      · exact List.forall_mem_nil _
    · exact List.forall_mem_nil _
  · rename_i hnone
    exact absurd (List.head?_eq_none_iff.mp hnone) hplayers

theorem reconfigure_replies (hplayers : a.players ≠ []) (newLimit newReserved : Int) :
    Replies sender false (a.reconfigure d sender newLimit newReserved).writes := by
  unfold reconfigure
  split
  · split
    · split
      · exact List.forall_mem_singleton.mpr rfl
      · dsimp only
        split
        · intro w hw
          obtain ⟨player, -, rfl⟩ := List.mem_map.mp hw
          rfl
        · rename_i hnone
          exact absurd (makeRoomInfo_eq_none.mp hnone) hplayers
    · exact List.forall_mem_nil _
  · rename_i hnone
    exact absurd (List.head?_eq_none_iff.mp hnone) hplayers

theorem update_replies (data senderName : String) (toSelf : Bool) (flags : Int) :
    Replies sender false (a.update d sender data senderName toSelf flags).writes := by
  unfold update
  split
  · intro w hw
    obtain ⟨player, -, rfl⟩ := List.mem_map.mp hw
    rfl
  · exact List.forall_mem_nil _

theorem disconnected_replies : Replies sender false (a.disconnected d sender).writes := by
  unfold disconnected
  split
  · dsimp only
    split <;> exact List.forall_mem_nil _
  · exact List.forall_mem_nil _

/-- What a running actor with players replies. -/
theorem running_replies (hplayers : a.players ≠ []) (hrunning : a.behaviour = .running) (m : LobbyMessage) :
    Replies sender (a.AnswersPlainly answer m) (a.running d sender answer m).writes := by
  unfold AnswersPlainly
  rw [hrunning]
  cases m with
  | init => exact List.forall_mem_nil _
  | join playerName => exact join_replies playerName
  | close =>
    intro w hw
    obtain ⟨player, -, rfl⟩ := List.mem_map.mp hw
    rfl
  | disconnected => exact disconnected_replies
  | update room data senderName toSelf flags => exact update_replies data senderName toSelf flags
  | json raw =>
    cases raw with
    | none => exact ⟨_, rfl, rfl⟩
    | some message =>
      cases message with
      | message senderName data toSelf =>
        intro w hw
        obtain ⟨player, -, rfl⟩ := List.mem_map.mp hw
        rfl
      | startSession data => exact startSession_replies data
      | ejectPlayer playerName => exact eject_replies hplayers playerName
      | reconfigure newLimit newReserved => exact reconfigure_replies hplayers _ _
      | _ => exact List.forall_mem_nil _

variable (d sender self answer) in
/-- What an actor replies. -/
theorem receive_replies (hplayers : a.behaviour = .running → a.players ≠ []) (m : LobbyMessage) :
    Replies sender (a.AnswersPlainly answer m) (a.receive d sender self answer m).writes := by
  unfold receive
  cases hbehaviour : a.behaviour with
  | initial =>
    unfold AnswersPlainly
    rw [hbehaviour]
    cases m with
    | init hostName roomName description playersLimit playersReserved userParam =>
      exact init_replies hostName roomName description playersLimit playersReserved userParam
    | _ => exact List.forall_mem_nil _
  | running => exact running_replies (hplayers hbehaviour) hbehaviour m
  | zombie =>
    unfold AnswersPlainly
    rw [hbehaviour]
    cases m <;> exact List.forall_mem_nil _

end LobbyActor2

namespace Client

/-- The client's actor answers at once: a request to join a room that is not there, and what it cannot read. -/
def AnswersPlainly (client : Client) (d : Depot) (raw : Option FrontendMessage) : Bool :=
  !client.stopped && match raw with
    | some (.joinRoom _ roomName) => (d.get roomName).isNone
    | none => true
    | _ => false

theorem receive_plainly (client : Client) (d : Depot) (created : LobbyRef) (raw : Option FrontendMessage) :
    (client.AnswersPlainly d raw = true →
      ∃ payload, (client.receive d created raw).writes = [payload] ∧ payload.known = false) ∧
    (client.AnswersPlainly d raw = false → (client.receive d created raw).writes = []) := by
  unfold AnswersPlainly
  cases hstopped : client.stopped with
  | true =>
    rw [receive_of_stopped hstopped]
    exact ⟨nofun, fun _ => rfl⟩
  | false =>
    have hhandled := receive_handled d created hstopped raw
    generalize client.receive d created raw = o at hhandled
    cases hhandled with
    | joins hget =>
      simp only [hget]
      exact ⟨nofun, fun _ => trivial⟩
    | missing hget =>
      simp only [hget]
      exact ⟨fun _ => ⟨_, rfl, rfl⟩, nofun⟩
    | unreadable => exact ⟨fun _ => ⟨_, rfl, rfl⟩, nofun⟩
    | _ => exact ⟨nofun, fun _ => rfl⟩

end Client

namespace Server

variable {σ : Server} {c : Connection} {b : ServerAction}

/-- What the server writes with an action. -/
def writes (σ : Server) : ServerAction → List Write
  | .received c raw => ((σ.clients c).receive σ.depot σ.created raw).writes.map fun payload => ⟨c, payload⟩
  | .closed c => ((σ.clients c).shutdown σ.created).writes.map fun payload => ⟨c, payload⟩
  | .handle l answer => ((σ.rooms l).handle σ.depot l answer).2.2

theorem step_sent : (σ.step b).sent = σ.sent ++ σ.writes b := by
  cases b <;> rfl

/-- The connection on which the action has a plain answer or a room description written. -/
def plainTo (σ : Server) : ServerAction → Option Connection
  | .received c raw => if (σ.clients c).AnswersPlainly σ.depot raw then some c else none
  | .closed _ => none
  | .handle l answer =>
    match (σ.rooms l).mailbox with
    | mail :: _ => if (σ.rooms l).actor.AnswersPlainly answer mail.message then some mail.sender else none
    | [] => none

/-- A connection that is closed stays closed. -/
theorem stopped_step (h : (σ.clients c).stopped = true) (b : ServerAction) : ((σ.step b).clients c).stopped = true := by
  cases b with
  | received c' raw =>
    simp only [step, turn]
    by_cases hc : c = c'
    · subst hc
      rw [Function.update_self, Client.receive_stopped, h]
    · rw [Function.update_of_ne hc, h]
  | closed c' =>
    simp only [step, turn]
    by_cases hc : c = c'
    · subst hc
      rw [Function.update_self, Client.shutdown, if_pos h]
      exact h
    · rw [Function.update_of_ne hc, h]
  | handle l answer => exact h

/-- Where an answer is written, nothing is closed. -/
theorem stopped_of_plainTo {c' : Connection} (h : σ.plainTo b = some c') :
    ((σ.step b).clients c).stopped = (σ.clients c).stopped := by
  cases b with
  | received c' raw =>
    simp only [step, turn]
    by_cases hc : c = c'
    · subst hc
      rw [Function.update_self, Client.receive_stopped]
    · rw [Function.update_of_ne hc]
  | closed c' => cases h
  | handle l answer => rfl

/-- An action writes one plain answer, or what `receive` knows. -/
theorem Registry.replies (h : Registry σ) (b : ServerAction) :
    (∀ c, σ.plainTo b = some c → ∃ payload, σ.writes b = [⟨c, payload⟩] ∧ payload.known = false) ∧
      (σ.plainTo b = none → ∀ w ∈ σ.writes b, w.payload.known = true) := by
  cases b with
  | received c raw =>
    obtain ⟨hanswer, hnone⟩ := Client.receive_plainly (σ.clients c) σ.depot σ.created raw
    simp only [plainTo, writes]
    refine ⟨fun c' hplain => ?_, fun hplain => ?_⟩
    · obtain ⟨hplainly, heq⟩ := Option.ite_none_right_eq_some.mp hplain
      cases heq
      obtain ⟨payload, hwrites, hunknown⟩ := hanswer hplainly
      exact ⟨payload, by rw [hwrites]; rfl, hunknown⟩
    · rw [hnone (by simpa using hplain)]
      exact List.forall_mem_nil _
  | closed c =>
    refine ⟨nofun, fun _ => ?_⟩
    simp only [writes, Client.shutdown]
    split <;> exact List.forall_mem_nil _
  | handle l answer =>
    cases hmailbox : (σ.rooms l).mailbox with
    | nil =>
      simp only [plainTo, writes, Room.handle, hmailbox]
      exact ⟨nofun, fun _ => List.forall_mem_nil _⟩
    | cons mail rest =>
      have hlive := h.live hmailbox
      have hreplies := LobbyActor2.receive_replies σ.depot mail.sender l answer (a := (σ.rooms l).actor)
        (fun hrunning => h.inhabited l ⟨hrunning, hlive⟩) mail.message
      simp only [plainTo, writes, Room.handle, hmailbox]
      unfold LobbyActor2.Replies at hreplies
      cases hplain : (σ.rooms l).actor.AnswersPlainly answer mail.message with
      | true =>
        rw [hplain] at hreplies
        refine ⟨fun c hc => ?_, nofun⟩
        cases hc
        exact hreplies
      | false =>
        rw [hplain] at hreplies
        exact ⟨nofun, fun _ => hreplies⟩

end Server

/-! ### What the client reads -/

/-- The call is `createRoom`, which is not checked for a room that the client is in. -/
def LobbyCall.creates : LobbyCall → Bool
  | .createRoom .. => true
  | _ => false

namespace Lobby

/-- Whether the client is in a room after it has taken a message, as the answer of the call that waits or else of
    the next one where it is in no room. -/
def joinedAfter (waits joined : Bool) (payload : TcpPayload) : Bool :=
  match waits, joined, payload with
  | false, true, .json (.ejected _) => false
  | _, joined, payload => joined || payload.asRoom.isSome

/-- Each of the messages that is for `receive` to take is one it knows. -/
def readable : Bool → Bool → List TcpPayload → Bool
  | _, _, [] => true
  | waits, joined, payload :: rest =>
    (payload.known || !(joined && !waits)) && readable false (joinedAfter waits joined payload) rest

/-- After these messages the next one is for `receive` to take. -/
def receivesAfter : Bool → Bool → List TcpPayload → Bool
  | waits, joined, [] => joined && !waits
  | waits, joined, payload :: rest => receivesAfter false (joinedAfter waits joined payload) rest

variable {waits joined : Bool} {payload : TcpPayload} {payloads more : List TcpPayload}

/-- No room is described by a message that `receive` knows. -/
theorem asRoom_of_known (h : payload.known = true) : payload.asRoom = none := by
  cases payload with
  | room info => cases h
  | _ => rfl

theorem readable_of_known (h : ∀ payload ∈ more, payload.known = true) : readable waits joined more = true := by
  induction more generalizing waits joined with
  | nil => rfl
  | cons payload rest ih =>
    have hknown := h payload List.mem_cons_self
    simp only [readable, hknown, Bool.true_or, Bool.true_and]
    exact ih fun payload' hpayload' => h payload' (List.mem_cons_of_mem _ hpayload')

theorem readable_append_known (h : ∀ payload ∈ more, payload.known = true) :
    readable waits joined (payloads ++ more) = readable waits joined payloads := by
  induction payloads generalizing waits joined with
  | nil => exact readable_of_known h
  | cons payload rest ih => simp only [List.cons_append, readable, ih]

theorem readable_append_plain (h : payload.known = false) : readable waits joined (payloads ++ [payload]) =
    (readable waits joined payloads && !receivesAfter waits joined payloads) := by
  induction payloads generalizing waits joined with
  | nil => simp [readable, receivesAfter, h]
  | cons first rest ih => simp only [List.cons_append, readable, receivesAfter, ih, Bool.and_assoc]

/-- `receive` throws a `ProtocolError` for what it does not know. What it knows can fail an assertion at most. -/
theorem dispatch_isSome (s : Lobby) (payload : TcpPayload) : (s.dispatch payload).isSome = payload.known := by
  cases payload with
  | json message =>
    simp only [dispatch]
    split
    · rename_i hknown
      exact hknown.symm
    · rename_i hknown
      exact (Bool.eq_false_iff.mpr hknown).symm
  | _ => rfl

/-- What `receive` knows leaves the client in its room, unless it is an `Ejected`. -/
theorem dispatch_joined {s s' : Lobby} (hjoined : s.isJoined = true) (h : s.dispatch payload = some s') :
    s'.isJoined = joinedAfter false true payload ∧ s'.awaiting = s.awaiting := by
  cases payload with
  | json message =>
    obtain ⟨-, hs'⟩ := Option.ite_none_right_eq_some.mp h
    cases hs'
    unfold Lobby.receive
    rw [if_pos hjoined]
    cases message <;> exact ⟨by first | exact hjoined | rfl, rfl⟩
  | _ => cases h

/-- Only an `Ejected` takes the client out of its room. -/
theorem joinedAfter_of_stays (h : ∀ flags, payload ≠ .json (.ejected flags)) :
    joinedAfter false true payload = true := by
  unfold joinedAfter
  split
  · exact absurd rfl (h _)
  · simp

/-- A client that leaves its room has less to read. -/
theorem readable_left (h : readable false true payloads = true) : readable false false payloads = true := by
  induction payloads with
  | nil => rfl
  | cons payload rest ih =>
    simp only [readable, Bool.and_eq_true] at h ⊢
    obtain ⟨hknown, hrest⟩ := h
    have hknown' : payload.known = true := by simpa using hknown
    refine ⟨by simp, ?_⟩
    by_cases heject : ∃ flags, payload = .json (.ejected flags)
    · obtain ⟨flags, rfl⟩ := heject
      exact hrest
    · have hjoined : joinedAfter false true payload = true :=
        joinedAfter_of_stays fun flags heq => heject ⟨flags, heq⟩
      have hleft : joinedAfter false false payload = false := by
        simp [joinedAfter, asRoom_of_known hknown']
      rw [hleft]
      rw [hjoined] at hrest
      exact ih hrest

/-- A client in a room that starts to wait has an `Ejected` for its answer, or any other message it knows. -/
theorem readable_creates (h : readable false true payloads = true) : readable true true payloads = true ↔
    ∀ flags rest, payloads = .json (.ejected flags) :: rest → readable false true rest = true := by
  cases payloads with
  | nil => exact iff_of_true rfl nofun
  | cons payload rest =>
    have hwaits : readable true true (payload :: rest) = readable false true rest := by
      simp [readable, joinedAfter]
    rw [hwaits]
    by_cases heject : ∃ flags, payload = .json (.ejected flags)
    · obtain ⟨flags, rfl⟩ := heject
      refine ⟨fun hrest flags' rest' heq => ?_, fun hrest => hrest flags rest rfl⟩
      cases heq
      exact hrest
    · refine iff_of_true ?_ fun flags rest' heq => absurd ⟨flags, (List.cons.inj heq).1⟩ heject
      simp only [readable, Bool.and_eq_true] at h
      rw [joinedAfter_of_stays fun flags heq => heject ⟨flags, heq⟩] at h
      exact h.2

end Lobby

namespace Wired

/-- What each client is to read is readable, while its connection is open. -/
def Understands (w : Wired) : Prop := ∀ c, (w.server.clients c).stopped = false →
  Lobby.readable (w.lobbies c).awaiting.isSome (w.lobbies c).isJoined (w.pending c) = true

/-- A plain answer or a room description is written on a connection only if it is not for `receive` to take. Nor
    does `createRoom`, called from within a room, take an `Ejected` for its answer with such a message behind it. -/
def AnswersAwaited (w : Wired) : WiredAction → Prop
  | .call c k => k.creates = true → ((w.lobbies c).call k).isSome = true → (w.server.clients c).stopped = false →
    (w.lobbies c).isJoined = true → ∀ flags rest, w.pending c = .json (.ejected flags) :: rest →
    Lobby.readable false true rest = true
  | action => ∀ b ∈ w.serverAction action, ∀ c ∈ w.server.plainTo b, (w.server.clients c).stopped = false →
    Lobby.receivesAfter (w.lobbies c).awaiting.isSome (w.lobbies c).isJoined (w.pending c) = false

/-- The registry is in order, and nobody has taken more than was written. -/
structure InOrder (w : Wired) : Prop where
  registry : w.server.Registry
  taken : ∀ c, w.taken c ≤ (w.server.outbox c).length

variable {w : Wired} {c : Connection}

theorem outbox_step {σ : Server} (b : ServerAction) :
    (σ.step b).outbox c = σ.outbox c ++ ((σ.writes b).filter (·.receiver = c)).map (·.payload) := by
  unfold Server.outbox
  rw [Server.step_sent, List.filter_append, List.map_append]

/-- What the server writes comes behind what is there. -/
theorem InOrder.pending_append (h : InOrder w) {v : Wired} {b : ServerAction} (hserver : v.server = w.server.step b)
    (htaken : v.taken c = w.taken c) :
    v.pending c = w.pending c ++ ((w.server.writes b).filter (·.receiver = c)).map (·.payload) := by
  unfold pending
  rw [hserver, htaken, outbox_step, List.drop_append_of_le_length (h.taken c)]

theorem pending_take {payload : TcpPayload} {rest : List TcpPayload} (hpending : w.pending c = payload :: rest)
    (s : Lobby) : (w.take c s).pending c = rest := by
  have hdrop : (w.server.outbox c).drop (w.taken c) = payload :: rest := hpending
  simp only [pending, take, Function.update_self]
  rw [← List.drop_drop, hdrop]
  rfl

theorem pending_take_other {c' : Connection} (hc : c' ≠ c) (s : Lobby) : (w.take c s).pending c' = w.pending c' := by
  simp only [pending, take, Function.update_of_ne hc]

/-- A message is taken, or nobody takes one. -/
theorem step_taken (w : Wired) (action : WiredAction) : (w.step action).taken = w.taken ∨
    ∃ c s payload rest, w.pending c = payload :: rest ∧ w.step action = w.take c s := by
  cases action with
  | answer c =>
    simp only [step]
    split
    · rename_i payload rest _ hpending
      exact Or.inr ⟨c, _, payload, rest, hpending, rfl⟩
    · exact Or.inl rfl
  | receive c =>
    simp only [step]
    split
    · rename_i payload rest _ hpending
      exact Or.inr ⟨c, _, payload, rest, hpending, rfl⟩
    · exact Or.inl rfl
  | timeout c =>
    simp only [step]
    split <;> exact Or.inl rfl
  | _ => exact Or.inl rfl

theorem outbox_length_step (w : Wired) (action : WiredAction) (c : Connection) :
    (w.server.outbox c).length ≤ ((w.step action).server.outbox c).length := by
  rw [step_server]
  split
  · rw [outbox_step, List.length_append]
    exact Nat.le_add_right _ _
  · exact le_refl _

theorem InOrder.start (ipBackend : String) (portBackend : Int) : InOrder (start ipBackend portBackend) :=
  ⟨Server.Registry.start ipBackend portBackend, fun _ => Nat.zero_le _⟩

theorem InOrder.step (h : InOrder w) (action : WiredAction) : InOrder (w.step action) where
  registry := by
    rw [step_server]
    split
    · exact h.registry.step _
    · exact h.registry
  taken c := by
    rcases step_taken w action with htaken | ⟨c', s, payload, rest, hpending, hstep⟩
    · rw [htaken]
      exact le_trans (h.taken c) (outbox_length_step w action c)
    · rw [hstep]
      simp only [take]
      by_cases hc : c = c'
      · subst hc
        rw [Function.update_self]
        have hrest : (w.server.outbox c).length - w.taken c = rest.length + 1 := by
          rw [← List.length_drop, ← List.length_cons, ← hpending]
          rfl
        omega
      · rw [Function.update_of_ne hc]
        exact h.taken c

/-! ### One step -/

/-- What the client is to read is readable, while its connection is open. -/
def Reads (w : Wired) (c : Connection) : Prop := (w.server.clients c).stopped = false →
  Lobby.readable (w.lobbies c).awaiting.isSome (w.lobbies c).isJoined (w.pending c) = true

/-- A client that is not in a room may wait, or not. -/
theorem readable_waits {payloads : List TcpPayload} (waits : Bool) :
    Lobby.readable waits false payloads = Lobby.readable false false payloads := by
  cases payloads with
  | nil => rfl
  | cons payload rest => cases waits <;> rfl

/-- A step that concerns one client. -/
theorem understands_iff_reads {v : Wired} (h : Understands w) (hserver : v.server = w.server)
    (hother : ∀ c' ≠ c, v.lobbies c' = w.lobbies c' ∧ v.pending c' = w.pending c') :
    Understands v ↔ v.Reads c := by
  refine ⟨fun hv => hv c, fun hc c' hlive => ?_⟩
  by_cases hcc : c' = c
  · rw [hcc] at hlive ⊢
    exact hc hlive
  · obtain ⟨hlobby, hpending⟩ := hother c' hcc
    rw [hlobby, hpending]
    rw [hserver] at hlive
    exact h c' hlive

/-- The client takes a message. -/
theorem understands_take {payload : TcpPayload} {rest : List TcpPayload} {s : Lobby} (h : Understands w)
    (hpending : w.pending c = payload :: rest) (hnext : w.Reads c → (w.server.clients c).stopped = false →
      s.awaiting = none ∧
      s.isJoined = Lobby.joinedAfter (w.lobbies c).awaiting.isSome (w.lobbies c).isJoined payload) :
    Understands (w.take c s) := by
  refine (understands_iff_reads (v := w.take c s) (c := c) h rfl fun c' hc => ⟨by
    simp only [take, Function.update_of_ne hc], pending_take_other hc s⟩).mpr fun hlive => ?_
  obtain ⟨hidle, hjoined⟩ := hnext (h c) hlive
  have hreads := h c hlive
  rw [hpending, Lobby.readable, Bool.and_eq_true] at hreads
  rw [pending_take hpending]
  simp only [take, Function.update_self, hidle, hjoined]
  exact hreads.2

theorem joinedAfter_waits (joined : Bool) (payload : TcpPayload) :
    Lobby.joinedAfter true joined payload = (joined || payload.asRoom.isSome) := rfl

theorem Understands.answer (h : Understands w) (c : Connection) : Understands (w.step (.answer c)) := by
  simp only [step]
  split
  · rename_i waiting payload rest hwaiting hpending
    refine understands_take h hpending fun _ _ => ?_
    unfold Lobby.answered
    rw [hwaiting, Option.isSome_some, joinedAfter_waits]
    cases payload.asRoom with
    | some room => exact ⟨rfl, (Bool.or_true _).symm⟩
    | none => exact ⟨rfl, (Bool.or_false _).symm⟩
  · exact h

theorem Understands.receive (h : Understands w) (c : Connection) : Understands (w.step (.receive c)) := by
  simp only [step]
  split
  · rename_i payload rest hreceives hpending
    obtain ⟨hjoined, hidle⟩ := (Bool.and_eq_true _ _).mp hreceives
    rw [Option.isNone_iff_eq_none] at hidle
    refine understands_take h hpending fun hreads hlive => ?_
    have hknown := hreads hlive
    rw [hidle, hjoined, hpending] at hknown
    simp only [Lobby.readable, Option.isSome_none, Bool.not_false, Bool.and_true, Bool.not_true, Bool.or_false,
      Bool.and_eq_true] at hknown
    obtain ⟨s, hdispatch⟩ := Option.isSome_iff_exists.mp ((Lobby.dispatch_isSome (w.lobbies c) payload).trans hknown.1)
    obtain ⟨hjoined', hidle'⟩ := Lobby.dispatch_joined hjoined hdispatch
    rw [hdispatch, hidle, hjoined]
    exact ⟨hidle'.trans hidle, hjoined'⟩
  · exact h

theorem Understands.timeout (h : Understands w) (c : Connection) : Understands (w.step (.timeout c)) := by
  by_cases hpending : w.pending c = []
  · have hstep : w.step (.timeout c) = { w with toService := w.toService.step (.answered c none) } := by
      simp only [step, if_pos hpending]
    have hlobbies (c' : Connection) (hc : c' ≠ c) : (w.step (.timeout c)).lobbies c' = w.lobbies c' := by
      rw [hstep]
      exact Function.update_of_ne hc _ _
    have hsame : (w.step (.timeout c)).pending = w.pending := by
      rw [hstep]
      rfl
    refine (understands_iff_reads (c := c) h (step_server w _) fun c' hc => ⟨hlobbies c' hc, by rw [hsame]⟩).mpr
      fun _ => ?_
    rw [hsame, hpending]
    rfl
  · simp only [step, if_neg hpending]
    exact h

/-- A call that changes neither whether the client waits nor whether it is in a room. -/
theorem understands_call {k : LobbyCall} {s : Lobby} {message : FrontendMessage}
    (hcall : (w.lobbies c).call k = some (s, message)) (h : Understands w) :
    Understands (w.step (.call c k)) ↔ ((w.server.clients c).stopped = false →
      Lobby.readable s.awaiting.isSome s.isJoined (w.pending c) = true) := by
  have hserver : (w.step (.call c k)).server = w.server := step_server w (.call c k)
  have hstep : (w.step (.call c k)).lobbies = Function.update w.lobbies c s := by
    simp only [step, Service.step, hcall]
  have hpending (c' : Connection) : (w.step (.call c k)).pending c' = w.pending c' := by
    unfold pending
    rw [hserver]
    rfl
  rw [understands_iff_reads (c := c) h hserver fun c' hc => ⟨by rw [hstep, Function.update_of_ne hc], hpending c'⟩]
  unfold Reads
  rw [hserver, hpending, hstep, Function.update_self]

theorem Understands.call_iff (h : Understands w) (c : Connection) (k : LobbyCall) :
    Understands (w.step (.call c k)) ↔ AnswersAwaited w (.call c k) := by
  simp only [AnswersAwaited]
  cases hcall : (w.lobbies c).call k with
  | none =>
    have hstep : w.step (.call c k) = w := by simp only [step, Service.step, hcall]
    rw [hstep]
    exact iff_of_true h fun _ hgoes => absurd hgoes Bool.false_ne_true
  | some next =>
    obtain ⟨s, message⟩ := next
    rw [understands_call hcall h]
    have hreads := h c
    obtain ⟨hidle, hcalled⟩ := Lobby.call_called hcall
    rw [hidle] at hreads
    cases hcalled with
    | creates =>
      simp only [LobbyCall.creates, Option.isSome_some, true_implies]
      -- `createRoom` waits for the next message, whatever it is; in a room that may be one of the room's.
      refine forall_congr' fun hlive => ?_
      have hreads := hreads hlive
      cases hjoined : (w.lobbies c).isJoined with
      | false =>
        rw [hjoined] at hreads
        exact iff_of_true ((readable_waits true).trans hreads) fun hin => absurd hin Bool.false_ne_true
      | true =>
        rw [hjoined] at hreads
        simp only [true_implies]
        exact Lobby.readable_creates hreads
    | joins hout =>
      refine iff_of_true (fun hlive => ?_) fun hcreates => absurd hcreates Bool.false_ne_true
      simp only [hout, readable_waits] at hreads ⊢
      exact hreads hlive
    | leaves hjoined =>
      refine iff_of_true (fun hlive => ?_) fun hcreates => absurd hcreates Bool.false_ne_true
      simp only [hjoined, hidle] at hreads ⊢
      exact Lobby.readable_left (hreads hlive)
    | _ =>
      refine iff_of_true (fun hlive => ?_) fun hcreates => absurd hcreates Bool.false_ne_true
      rw [hidle]
      exact hreads hlive

/-- The server takes a step. -/
theorem understands_server_iff {v : Wired} {b : ServerAction} (horder : InOrder w) (h : Understands w)
    (hserver : v.server = w.server.step b) (hlobbies : v.lobbies = w.lobbies) (htaken : v.taken = w.taken) :
    Understands v ↔ ∀ c ∈ w.server.plainTo b, (w.server.clients c).stopped = false →
      Lobby.receivesAfter (w.lobbies c).awaiting.isSome (w.lobbies c).isJoined (w.pending c) = false := by
  have hpending (c : Connection) := horder.pending_append hserver (c := c) (congrFun htaken c)
  have hlive (c : Connection) (hv : (v.server.clients c).stopped = false) : (w.server.clients c).stopped = false := by
    rw [hserver] at hv
    exact Bool.eq_false_iff.mpr fun hstopped => nomatch (Server.stopped_step hstopped b).symm.trans hv
  obtain ⟨hplain, hknown⟩ := horder.registry.replies b
  cases hto : w.server.plainTo b with
  | none =>
    refine iff_of_true (fun c hv => ?_) nofun
    -- Messages that `receive` knows can be read whatever comes before them.
    rw [hpending, hlobbies, Lobby.readable_append_known]
    · exact h c (hlive c hv)
    · intro payload hpayload
      obtain ⟨write, hwrite, rfl⟩ := List.mem_map.mp hpayload
      exact hknown hto write (List.mem_filter.mp hwrite).1
  | some c =>
    obtain ⟨payload, hwrites, hunknown⟩ := hplain c hto
    rw [hwrites] at hpending
    simp only [Option.mem_def, Option.some.injEq, forall_eq']
    -- The plain answer comes last; all that is before it has been readable.
    have hnew : v.pending c = w.pending c ++ [payload] := by
      rw [hpending]
      simp
    constructor
    · intro hv hlive
      have hstopped : (v.server.clients c).stopped = false := by rw [hserver, Server.stopped_of_plainTo hto, hlive]
      have hreads := hv c hstopped
      rw [hnew, hlobbies, Lobby.readable_append_plain hunknown, Bool.and_eq_true] at hreads
      simpa using hreads.2
    · intro hawaited c' hv
      have hreads := h c' (hlive c' hv)
      by_cases hc : c' = c
      · rw [hc] at hv hreads ⊢
        rw [hnew, hlobbies, Lobby.readable_append_plain hunknown, hawaited (hlive c hv), hreads]
        rfl
      · have hold : v.pending c' = w.pending c' := by
          rw [hpending]
          simp [Ne.symm hc]
        rw [hold, hlobbies]
        exact hreads

/-- One step keeps all that is to be read readable exactly if its answer is awaited. -/
theorem Understands.step_iff (horder : InOrder w) (h : Understands w) (action : WiredAction) :
    Understands (w.step action) ↔ AnswersAwaited w action := by
  have hserver := step_server w action
  cases action with
  | call c k => exact h.call_iff c k
  | answer c => exact iff_of_true (h.answer c) (by simp [AnswersAwaited, serverAction])
  | timeout c => exact iff_of_true (h.timeout c) (by simp [AnswersAwaited, serverAction])
  | receive c => exact iff_of_true (h.receive c) (by simp [AnswersAwaited, serverAction])
  | closed c =>
    rw [understands_server_iff (v := w.step (.closed c)) horder h hserver rfl rfl]
    simp only [AnswersAwaited, serverAction, Option.mem_def, Option.some.injEq, forall_eq']
  | handle l answer =>
    rw [understands_server_iff (v := w.step (.handle l answer)) horder h hserver rfl rfl]
    simp only [AnswersAwaited, serverAction, Option.mem_def, Option.some.injEq, forall_eq']
  | deliver c =>
    simp only [AnswersAwaited, serverAction] at hserver ⊢
    cases hwire : (w.wires c).head? with
    | none =>
      have hstep : w.step (.deliver c) = w := by
        rw [List.head?_eq_none_iff] at hwire
        simp only [step, Service.step, hwire]
      rw [hstep]
      exact iff_of_true h (by simp)
    | some message =>
      rw [hwire] at hserver
      have hlobbies : (w.step (.deliver c)).lobbies = w.lobbies := by
        simp only [step, Service.step]
        split <;> rfl
      rw [understands_server_iff (v := w.step (.deliver c)) horder h hserver hlobbies rfl]
      simp only [Option.map_some, Option.mem_def, Option.some.injEq, forall_eq']

/-- In every run of the server and its clients, all that the server writes to a client that is in a room is known
    to its `receive` exactly if plain answers come only to calls that wait for them. -/
theorem dispatches_iff (ipBackend : String) (portBackend : Int) (as : List WiredAction) :
    Machine.Always step Understands (start ipBackend portBackend) as ↔
      Machine.Along step AnswersAwaited (start ipBackend portBackend) as :=
  Machine.always_iff_along (fun _ action h => InOrder.step h action) (fun _ action horder h => h.step_iff horder action)
    (InOrder.start ipBackend portBackend) fun _ _ => rfl

/-- The backend has no slot left for a session, and the answer to the host's `startSession` stops its `receive`. -/
theorem session_refused_unknown :
    let as : List WiredAction := [.call 0 (.createRoom "a" "R" "" 2 0 ""), .deliver 0, .handle 0 none, .answer 0,
      .call 0 (.startSession ""), .deliver 0, .handle 0 (some (-1))]
    let w := Machine.run step (start "localhost" 8700) as
    ¬Machine.Always step Understands (start "localhost" 8700) as ∧ (w.server.clients 0).stopped = false ∧
      (w.lobbies 0).isJoined = true ∧ (w.lobbies 0).awaiting = none ∧ w.pending 0 = [.text responseSuck] ∧
      (w.lobbies 0).dispatch (.text responseSuck) = none := by
  intro as w
  refine ⟨fun h => ?_, by decide +kernel, by decide +kernel, by decide +kernel, by decide +kernel, by decide +kernel⟩
  have hlast : w.Understands := Machine.always_iff_prefix.mp h as (List.prefix_refl as)
  have hreads := hlast 0 (by decide +kernel)
  revert hreads
  decide +kernel

end Wired

end MultiSlider
