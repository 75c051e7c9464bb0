import MultiSlider.Lobby.Registry

/-! The life of a lobby actor: it is created with its `Init`, which is its first message and its only one, and it
    gets a `Join` only while it runs. What asks for a response is answered when it is handled. -/

namespace MultiSlider

/-- The messages that ask for a response. -/
def LobbyMessage.asks : LobbyMessage → Bool
  | .init .. | .join _ => true
  | _ => false

/-- The message that an actor is created for. -/
def LobbyMessage.isInit : LobbyMessage → Bool
  | .init .. => true
  | _ => false

/-- A request to create or to join a room. -/
def FrontendMessage.asks : FrontendMessage → Bool
  | .createRoom .. | .joinRoom _ _ => true
  | _ => false

/-- A response to such a request. -/
def TcpPayload.isResponse : TcpPayload → Bool
  | .room _ => true
  | .text raw => raw = responseRoomExists || raw = responseNameExists || raw = responseRoomIsFull || raw = responseSuck
  | .json _ => false

namespace LobbyActor2

variable {a : LobbyActor2} {d : Depot} {sender : Connection} {self : LobbyRef} {answer : Option Int}

/-- The message ends the room: it closes the room, or it takes the last player off the list. -/
def Ends (a : LobbyActor2) (sender : Connection) : LobbyMessage → Prop
  | .close => True
  | .disconnected => ∃ player, a.players = [player] ∧ player.actor = sender
  | _ => False

theorem Handled.ends {m : LobbyMessage} {o : LobbyOutcome} (h : Handled a d sender m o) (hlive : a.stopped = false) :
    o.lobby.stopped = true ↔ a.Ends sender m := by
  cases h with
  | emptied own last => exact iff_of_true rfl ⟨_, last, own⟩
  | closed => exact iff_of_true rfl trivial
  | stranger absent =>
    refine iff_of_false (by rw [hlive]; nofun) ?_
    rintro ⟨player, hplayers, hactor⟩
    exact absent player (hplayers ▸ List.mem_singleton_self _) hactor
  | @left player b room found next info =>
    subst next
    refine iff_of_false (by rw [hlive]; nofun) ?_
    rintro ⟨only, hplayers, hactor⟩
    -- Nobody would be left to describe the room.
    have hempty : a.players.erase player = [] := by
      have hmember := List.mem_of_find?_eq_some found
      rw [hplayers] at hmember ⊢
      rw [List.mem_singleton.mp hmember, List.erase_cons_head]
    cases info.symm.trans (makeRoomInfo_eq_none.mpr hempty)
  | joined _ next _ =>
    subst next
    exact iff_of_false (by rw [hlive]; nofun) id
  | ejected _ _ _ _ next _ =>
    subst next
    exact iff_of_false (by rw [hlive]; nofun) id
  | reconfigured _ _ next _ =>
    subst next
    exact iff_of_false (by rw [hlive]; nofun) id
  | _ => exact iff_of_false (by rw [hlive]; nofun) id

/-- What a running actor forwards asks for nothing. -/
theorem Handled.forwards_silent {m : LobbyMessage} {o : LobbyOutcome} (h : Handled a d sender m o) :
    ∀ message ∈ o.forwards, message.asks = false := by
  cases h with
  | joined _ _ _ => exact List.forall_mem_singleton.mpr rfl
  | left _ _ _ => exact List.forall_mem_singleton.mpr rfl
  | ejected _ _ _ _ _ _ => exact List.forall_mem_singleton.mpr rfl
  | forwarded => exact List.forall_mem_singleton.mpr rfl
  | leaving => exact List.forall_mem_singleton.mpr rfl
  | _ => exact List.forall_mem_nil _

/-- A `Join` gets one response. -/
theorem join_response (playerName : String) : ∃ payload, (a.join d sender playerName).writes = [⟨sender, payload⟩] ∧
    payload.isResponse = true := by
  unfold join
  split
  · split
    · dsimp only
      split
      · exact ⟨_, rfl, rfl⟩
      · rename_i hnone
        simp [makeRoomInfo_eq_none] at hnone
    · exact ⟨_, rfl, rfl⟩
  · exact ⟨_, rfl, rfl⟩

variable (a d sender self) in
/-- An `Init` gets one response. -/
theorem init_response (hostName roomName description : String) (playersLimit playersReserved : Int)
    (userParam : String) : ∃ payload,
    (a.init d sender self hostName roomName description playersLimit playersReserved userParam).writes =
      [⟨sender, payload⟩] ∧ payload.isResponse = true := by
  unfold init
  dsimp only
  split
  · split
    · exact ⟨_, rfl, rfl⟩
    · exact ⟨_, rfl, rfl⟩
    · exact ⟨_, rfl, rfl⟩
  · rename_i hnone
    simp [makeRoomInfo_eq_none] at hnone

/-- A new actor leaves its first behaviour with the `Init`. -/
theorem receive_init {m : LobbyMessage} (hinitial : a.behaviour = .initial) (hinit : m.isInit = true) :
    (a.receive d sender self answer m).lobby.behaviour ≠ .initial := by
  cases m with
  | init hostName roomName description playersLimit playersReserved userParam =>
    unfold receive
    rw [hinitial]
    rcases init_cases a d sender self hostName roomName description playersLimit playersReserved userParam with
      hopened | ⟨hzombie, -, -⟩
    · exact fun h => nomatch hopened.running.symm.trans h
    · exact fun h => nomatch hzombie.symm.trans h
  | _ => cases hinit

end LobbyActor2

/-! ### The life of an actor -/

/-- A new actor's first message is its `Init`, and its only request so far; it gets no other `Init`, and a zombie
    no `Join`. -/
structure Room.Staged (r : Room) : Prop where
  initial : r.actor.behaviour = .initial → ∃ mail rest, r.mailbox = mail :: rest ∧ mail.message.isInit = true ∧
    ∀ mail ∈ rest, mail.message.asks = false
  running : r.actor.behaviour = .running → ∀ mail ∈ r.mailbox, mail.message.isInit = false
  zombie : r.actor.behaviour = .zombie → ∀ mail ∈ r.mailbox, mail.message.asks = false

namespace Room

variable {r : Room} {d : Depot} {self : LobbyRef} {answer : Option Int}

theorem not_init_of_not_asks {m : LobbyMessage} (h : m.asks = false) : m.isInit = false := by
  cases m with
  | init => cases h
  | _ => rfl

/-- A message that asks for nothing comes in, or a `Join` to an open room. -/
theorem Staged.post (h : r.Staged) {mail : Mail}
    (hmail : mail.message.asks = false ∨ (r.Open ∧ mail.message.isInit = false)) : (r.post mail).Staged := by
  have hinit : mail.message.isInit = false := by
    rcases hmail with hsilent | ⟨-, hinit⟩
    · exact not_init_of_not_asks hsilent
    · exact hinit
  have hsilent (hclosed : r.actor.behaviour ≠ .running) : mail.message.asks = false := by
    rcases hmail with hsilent | ⟨hopen, -⟩
    · exact hsilent
    · exact absurd hopen.1 hclosed
  unfold Room.post
  split
  · exact h
  · refine ⟨fun hinitial => ?_, fun hrunning mail' hmail' => ?_, fun hzombie mail' hmail' => ?_⟩
    · obtain ⟨first, rest, hmailbox, hfirst, hrest⟩ := h.initial hinitial
      refine ⟨first, rest ++ [mail], ?_, hfirst, fun mail' hmail' => ?_⟩
      · dsimp only
        rw [hmailbox, List.cons_append]
      · rcases List.mem_append.mp hmail' with hmail' | hmail'
        · exact hrest mail' hmail'
        · rw [List.mem_singleton.mp hmail']
          exact hsilent (by rw [hinitial]; nofun)
    · rcases List.mem_append.mp hmail' with hmail' | hmail'
      · exact h.running hrunning mail' hmail'
      · rwa [List.mem_singleton.mp hmail']
    · rcases List.mem_append.mp hmail' with hmail' | hmail'
      · exact h.zombie hzombie mail' hmail'
      · rw [List.mem_singleton.mp hmail']
        exact hsilent (by rw [hzombie]; nofun)

/-- The `Init` comes to the new actor. -/
theorem staged_create {mail : Mail} (hinit : mail.message.isInit = true) : (create.post mail).Staged where
  initial _ := ⟨mail, [], rfl, hinit, List.forall_mem_nil _⟩
  running hrunning := nomatch hrunning
  zombie hzombie := nomatch hzombie

/-- After the first message of a room that is not open there are no requests. -/
theorem Staged.rest_silent (h : r.Staged) (hclosed : r.actor.behaviour ≠ .running) {mail : Mail} {rest : List Mail}
    (hmailbox : r.mailbox = mail :: rest) : ∀ mail ∈ rest, mail.message.asks = false := by
  cases hbehaviour : r.actor.behaviour with
  | initial =>
    obtain ⟨first, rest', hmailbox', -, hrest⟩ := h.initial hbehaviour
    rw [hmailbox] at hmailbox'
    cases hmailbox'
    exact hrest
  | running => exact absurd hbehaviour hclosed
  | zombie =>
    have hsilent := h.zombie hbehaviour
    rw [hmailbox] at hsilent
    exact fun mail' hmail' => hsilent mail' (List.mem_cons_of_mem _ hmail')

variable (d self answer) in
/-- What is asked of an actor gets one response, on the connection that asks. -/
theorem Staged.response (h : r.Staged) {mail : Mail} {rest : List Mail} (hmailbox : r.mailbox = mail :: rest)
    (hasks : mail.message.asks = true) : ∃ payload,
    (r.actor.receive d mail.sender self answer mail.message).writes = [⟨mail.sender, payload⟩] ∧
      payload.isResponse = true := by
  obtain ⟨sender, message⟩ := mail
  unfold LobbyActor2.receive
  cases hbehaviour : r.actor.behaviour with
  | initial =>
    obtain ⟨first, rest', hmailbox', hfirst, -⟩ := h.initial hbehaviour
    rw [hmailbox] at hmailbox'
    cases hmailbox'
    cases message with
    | init => exact LobbyActor2.init_response _ _ _ _ _ _ _ _ _ _
    | _ => cases hfirst
  | running =>
    have hinit := h.running hbehaviour
    rw [hmailbox] at hinit
    cases message with
    | init => exact nomatch hinit _ List.mem_cons_self
    | join playerName => exact LobbyActor2.join_response playerName
    | _ => cases hasks
  | zombie =>
    have hsilent := h.zombie hbehaviour
    rw [hmailbox] at hsilent
    exact nomatch hasks.symm.trans (hsilent _ List.mem_cons_self)

variable (d self answer) in
/-- Nothing that asks for a response is forwarded. -/
theorem receive_forwards_silent (a : LobbyActor2) (sender : Connection) (m : LobbyMessage) :
    ∀ message ∈ (a.receive d sender self answer m).forwards, message.asks = false := by
  rcases LobbyActor2.receive_cases a d sender self answer m with ⟨-, hhandled⟩ | ⟨-, -, hopened⟩ | ⟨-, -, hforwards, -⟩
  · exact hhandled.forwards_silent
  · rw [hopened.forwards]
    exact List.forall_mem_nil _
  · rw [hforwards]
    exact List.forall_mem_nil _

theorem Staged.handle (h : r.Staged) : (r.handle d self answer).1.Staged := by
  unfold Room.handle
  cases hmailbox : r.mailbox with
  | nil => exact h
  | cons mail rest =>
    dsimp only
    rcases LobbyActor2.receive_cases r.actor d mail.sender self answer mail.message with
      ⟨hbefore, hhandled⟩ | ⟨hinitial, -, hopened⟩ | ⟨hnot, -, hforwards, hlobby⟩
    -- A running actor sends itself no `Init`.
    · have hrunning := h.running hbefore
      rw [hmailbox] at hrunning
      have hafter := hhandled.behaviour.trans hbefore
      refine ⟨fun h => (nomatch hafter.symm.trans h), fun _ mail' hmail' => ?_, fun h => nomatch hafter.symm.trans h⟩
      dsimp only at hmail'
      split at hmail'
      · cases hmail'
      · rcases List.mem_append.mp hmail' with hmail' | hmail'
        · exact hrunning mail' (List.mem_cons_of_mem _ hmail')
        · obtain ⟨message, hmessage, rfl⟩ := List.mem_map.mp hmail'
          exact not_init_of_not_asks (hhandled.forwards_silent message hmessage)
    · have hrest := h.rest_silent (fun hrunning => nomatch hinitial.symm.trans hrunning) hmailbox
      have hafter := hopened.running
      refine ⟨fun h => (nomatch hafter.symm.trans h), fun _ mail' hmail' => ?_, fun h => nomatch hafter.symm.trans h⟩
      dsimp only at hmail'
      rw [hopened.forwards] at hmail'
      split at hmail'
      · cases hmail'
      · rw [List.map_nil, List.append_nil] at hmail'
        exact not_init_of_not_asks (hrest mail' hmail')
    · have hrest := h.rest_silent hnot hmailbox
      -- A message that leaves the actor initial would be no `Init`, but the first one is.
      have hzombie : (r.actor.receive d mail.sender self answer mail.message).lobby.behaviour = .zombie := by
        rcases hlobby with ⟨hinitial, hlobby⟩ | hzombie
        · obtain ⟨first, rest', hmailbox', hfirst, -⟩ := h.initial hinitial
          rw [hmailbox] at hmailbox'
          cases hmailbox'
          exact absurd (hlobby ▸ hinitial) (LobbyActor2.receive_init hinitial hfirst)
        · exact hzombie
      refine ⟨fun h => (nomatch hzombie.symm.trans h), fun h => (nomatch hzombie.symm.trans h),
        fun _ mail' hmail' => ?_⟩
      dsimp only at hmail'
      rw [hforwards] at hmail'
      split at hmail'
      · cases hmail'
      · rw [List.map_nil, List.append_nil] at hmail'
        exact hrest mail' hmail'

end Room

namespace Server

/-- The rooms of actors that are not created yet are empty, nobody's handler is one of them, and the others are as
    the life of an actor has it. -/
structure Lives (σ : Server) : Prop where
  fresh : ∀ l, σ.created ≤ l → σ.rooms l = .create
  handlers : ∀ c l, (σ.clients c).handler = some l → l < σ.created
  staged : ∀ l, l < σ.created → (σ.rooms l).Staged

variable {σ : Server} {c : Connection} {l : LobbyRef} {answer : Option Int} {o : ClientOutcome}

theorem Lives.start (ipBackend : String) (portBackend : Int) : Lives (start ipBackend portBackend) where
  fresh _ _ := rfl
  handlers _ _ hhandler := nomatch hhandler
  staged _ hl := absurd hl (Nat.not_lt_zero _)

theorem Lives.created (h : Lives σ) (hopen : (σ.rooms l).Open) : l < σ.created := by
  by_contra hnot
  rw [h.fresh l (Nat.le_of_not_lt hnot)] at hopen
  cases hopen.1

/-- What a client forwards creates an actor with its `Init`, or goes to an actor that is there: what asks for
    nothing, or a `Join` to an open room. -/
def Forwards (σ : Server) (o : ClientOutcome) : Prop :=
  (o.created = σ.created + 1 ∧ ∃ message, o.forward = some (σ.created, message) ∧ message.isInit = true) ∨
  (o.created = σ.created ∧ ∀ l message, o.forward = some (l, message) → l < σ.created ∧
    (message.asks = false ∨ ((σ.rooms l).Open ∧ message.isInit = false)))

theorem Forwards.le (h : Forwards σ o) : σ.created ≤ o.created := by
  rcases h with ⟨hcreated, -⟩ | ⟨hcreated, -⟩
  · rw [hcreated]
    exact Nat.le_succ _
  · rw [hcreated]

theorem Lives.turn (h : Lives σ) (hforwards : Forwards σ o)
    (hhandler : ∀ l, o.client.handler = some l → l < o.created) : Lives (σ.turn c o) where
  fresh l hl := by
    have hl' : o.created ≤ l := hl
    -- A message goes to an actor that exists, the one that has just been made included.
    rcases turn_room (σ := σ) (c := c) (o := o) (l := l) with hroom | ⟨message, hforward, -⟩
    · rw [hroom]
      exact h.fresh l (Nat.le_trans hforwards.le hl')
    · rcases hforwards with ⟨hcreated, first, hfirst, -⟩ | ⟨hcreated, hthere⟩
      · cases hforward.symm.trans hfirst
        rw [hcreated] at hl'
        exact absurd hl' (Nat.not_succ_le_self _)
      · rw [hcreated] at hl'
        exact absurd hl' (Nat.not_le_of_lt (hthere l message hforward).1)
  handlers c' l hc' := by
    by_cases hc : c' = c
    · subst hc
      refine hhandler l ?_
      rw [← hc']
      exact congrArg Client.handler (Function.update_self c' o.client σ.clients).symm
    · have hclient : (σ.turn c o).clients c' = σ.clients c' := Function.update_of_ne hc _ _
      rw [hclient] at hc'
      exact Nat.lt_of_lt_of_le (h.handlers c' l hc') hforwards.le
  staged l hl := by
    have hl' : l < o.created := hl
    rcases hforwards with ⟨hcreated, first, hfirst, hinit⟩ | ⟨hcreated, hthere⟩
    · rw [hcreated] at hl'
      simp only [Server.turn, hfirst, forward]
      -- The new actor has its `Init` as the first message; the others are as they were.
      rcases Nat.lt_succ_iff_lt_or_eq.mp hl' with hless | rfl
      · rw [Function.update_of_ne (Nat.ne_of_lt hless)]
        exact h.staged l hless
      · rw [Function.update_self, h.fresh _ (Nat.le_refl _)]
        exact Room.staged_create hinit
    · rcases turn_room (σ := σ) (c := c) (o := o) (l := l) with hroom | ⟨message, hforward, hroom⟩
      · rw [hroom]
        exact h.staged l (hcreated ▸ hl')
      · obtain ⟨hless, hmail⟩ := hthere l message hforward
        rw [hroom]
        exact (h.staged l hless).post hmail

/-- What a client makes of what comes in. -/
theorem Lives.forwards (h : Lives σ) (hregistry : Registry σ) (raw : Option FrontendMessage) :
    let o := (σ.clients c).receive σ.depot σ.created raw
    Forwards σ o ∧ ∀ l, o.client.handler = some l → l < o.created := by
  have hown := h.handlers c
  cases hstopped : (σ.clients c).stopped with
  | true =>
    rw [Client.receive_of_stopped hstopped]
    exact ⟨Or.inr ⟨rfl, fun _ _ hforward => nomatch hforward⟩, hown⟩
  | false =>
    have hhandled := Client.receive_handled σ.depot σ.created hstopped raw
    dsimp only
    generalize (σ.clients c).receive σ.depot σ.created raw = o at hhandled
    -- What the registry knows under a name is an open room.
    have hfound {roomName : String} {lobby : LobbyStats} (hget : σ.depot.get roomName = some lobby) :
        (σ.rooms lobby.handler).Open := (hregistry.own roomName lobby hget).1
    cases hhandled with
    | creates =>
      refine ⟨Or.inl ⟨rfl, _, rfl, rfl⟩, fun l hl => ?_⟩
      cases hl
      exact Nat.lt_succ_self _
    | joins hget =>
      have hless := h.created (hfound hget)
      refine ⟨Or.inr ⟨rfl, fun l message hforward => ?_⟩, fun l hl => ?_⟩
      · cases hforward
        exact ⟨hless, Or.inr ⟨hfound hget, rfl⟩⟩
      · cases hl
        exact hless
    | passes hget =>
      refine ⟨Or.inr ⟨rfl, fun l message hforward => ?_⟩, hown⟩
      cases hforward
      exact ⟨h.created (hfound hget), Or.inl rfl⟩
    | closes hhandler =>
      refine ⟨Or.inr ⟨rfl, fun l message hforward => ?_⟩, fun l hl => nomatch hl⟩
      cases hforward
      exact ⟨hown _ hhandler, Or.inl rfl⟩
    | _ => exact ⟨Or.inr ⟨rfl, fun _ _ hforward => nomatch hforward⟩, hown⟩

/-- The end of a connection. -/
theorem Lives.forwards_shutdown (h : Lives σ) : let o := (σ.clients c).shutdown σ.created
    Forwards σ o ∧ ∀ l, o.client.handler = some l → l < o.created := by
  have hown := h.handlers c
  unfold Client.shutdown
  split
  · exact ⟨Or.inr ⟨rfl, fun _ _ hforward => nomatch hforward⟩, hown⟩
  · refine ⟨Or.inr ⟨rfl, fun l message hforward => ?_⟩, hown⟩
    obtain ⟨handler, hhandler, heq⟩ := Option.map_eq_some_iff.mp hforward
    cases heq
    exact ⟨hown _ hhandler, Or.inl rfl⟩

theorem Lives.step (h : Lives σ) (hregistry : Registry σ) (action : ServerAction) : Lives (σ.step action) := by
  cases action with
  | received c raw =>
    obtain ⟨hforwards, hhandler⟩ := h.forwards (c := c) hregistry raw
    exact h.turn hforwards hhandler
  | closed c =>
    obtain ⟨hforwards, hhandler⟩ := h.forwards_shutdown (c := c)
    exact h.turn hforwards hhandler
  | handle l answer =>
    refine ⟨fun l' hl' => ?_, h.handlers, fun l' hl' => ?_⟩
    · by_cases heq : l' = l
      · subst heq
        have hidle : (σ.rooms l').mailbox = [] := by
          rw [h.fresh l' hl']
          rfl
        rw [Server.step, handle_idle hidle]
        exact h.fresh l' hl'
      · exact (handle_other heq).trans (h.fresh l' hl')
    · by_cases heq : l' = l
      · subst heq
        have hroom : ((σ.handle l' answer).rooms l') = ((σ.rooms l').handle σ.depot l' answer).1 :=
          Function.update_self l' _ _
        rw [Server.step, hroom]
        exact (h.staged l' hl').handle
      · rw [Server.step, handle_other heq]
        exact h.staged l' hl'

end Server

end MultiSlider
