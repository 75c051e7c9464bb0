import MultiSlider.Lobby.Frontend

/-! Who is let in. The counter of the frontend actor is the number of the clients that are served and of those
    whose departure it has yet to hear of, so no more than its limit are ever served at a time. One that is
    turned away is told so and nothing else, and nothing the rooms do reaches it. -/

namespace MultiSlider

namespace LobbyActor2

variable {a : LobbyActor2} {d : Depot} {sender : Connection} {self : LobbyRef} {answer : Option Int}
  {P : Connection → Prop}

/-- What an actor writes, and whom it has in its room afterwards, stays among the connections of `P`. -/
def Within (P : Connection → Prop) (o : LobbyOutcome) : Prop :=
  (∀ w ∈ o.writes, P w.receiver) ∧ ∀ player ∈ o.lobby.players, P player.actor

/-- The sender is answered. -/
theorem Within.answered (hsender : P sender) (hplayers : ∀ player ∈ a.players, P player.actor) (payload : TcpPayload)
    (forwards : List LobbyMessage) : Within P (a.done d [⟨sender, payload⟩] forwards) := by
  refine ⟨fun w hw => ?_, hplayers⟩
  rw [List.mem_singleton.mp hw]
  exact hsender

theorem Within.silent (hplayers : ∀ player ∈ a.players, P player.actor) (forwards : List LobbyMessage) :
    Within P (a.done d [] forwards) :=
  ⟨List.forall_mem_nil _, hplayers⟩

/-- Some of the players are told. -/
theorem forall_told (hplayers : ∀ player ∈ a.players, P player.actor) {players : List PlayerInfo2}
    (hsub : players ⊆ a.players) (payload : PlayerInfo2 → TcpPayload) :
    ∀ w ∈ players.map fun player => Write.mk player.actor (payload player), P w.receiver := by
  intro w hw
  obtain ⟨player, hplayer, rfl⟩ := List.mem_map.mp hw
  exact hplayers player (hsub hplayer)

theorem forall_players_append (hsender : P sender) (hplayers : ∀ player ∈ a.players, P player.actor) (name : String)
    (ready : Bool) : ∀ player ∈ a.players ++ [PlayerInfo2.mk sender name ready], P player.actor :=
  List.forall_mem_append.mpr ⟨hplayers, List.forall_mem_singleton.mpr hsender⟩

theorem forall_players_erase (hplayers : ∀ player ∈ a.players, P player.actor) (player : PlayerInfo2) :
    ∀ other ∈ a.players.erase player, P other.actor :=
  fun other hother => hplayers other (List.mem_of_mem_erase hother)

theorem init_within (hsender : P sender) (hplayers : ∀ player ∈ a.players, P player.actor)
    (hostName roomName description : String) (playersLimit playersReserved : Int) (userParam : String) :
    Within P (a.init d sender self hostName roomName description playersLimit playersReserved userParam) := by
  have hjoined := forall_players_append hsender hplayers hostName false
  unfold init
  dsimp only
  split
  · split
    · exact .answered hsender hjoined _ _
    · exact .answered hsender hjoined _ _
    · exact .answered hsender hjoined _ _
  · exact .silent hjoined _

theorem startSession_within (hsender : P sender) (hplayers : ∀ player ∈ a.players, P player.actor) (data : String) :
    Within P (a.startSession d sender answer data) := by
  unfold startSession
  split
  · split
    · exact ⟨forall_told hplayers (List.Subset.refl _) _, hplayers⟩
    · exact .answered hsender hplayers _ _
  · exact .answered hsender hplayers _ _

theorem eject_within (hsender : P sender) (hplayers : ∀ player ∈ a.players, P player.actor) (playerName : String) :
    Within P (a.eject d sender playerName) := by
  unfold eject
  split
  · split
    · split
      · rename_i player hfind
        have hplayer := hplayers player (List.mem_of_find?_eq_some hfind)
        have hrest := forall_players_erase hplayers player
        dsimp only
        split
        · exact ⟨List.forall_mem_singleton.mpr hplayer, hrest⟩
        · exact ⟨List.forall_mem_cons.mpr ⟨hplayer, List.forall_mem_singleton.mpr hsender⟩, hrest⟩
      · exact .silent hplayers _
    · exact .silent hplayers _
  · exact .answered hsender hplayers _ _

theorem reconfigure_within (hsender : P sender) (hplayers : ∀ player ∈ a.players, P player.actor)
    (newLimit newReserved : Int) : Within P (a.reconfigure d sender newLimit newReserved) := by
  unfold reconfigure
  split
  · split
    · split
      · exact .answered hsender hplayers _ _
      · dsimp only
        split
        · exact ⟨forall_told hplayers (List.Subset.refl _) _, hplayers⟩
        · refine .answered hsender ?_ _ _
          exact hplayers
    · exact .silent hplayers _
  · exact .answered hsender hplayers _ _

theorem join_within (hsender : P sender) (hplayers : ∀ player ∈ a.players, P player.actor) (playerName : String) :
    Within P (a.join d sender playerName) := by
  have hjoined := forall_players_append hsender hplayers playerName false
  unfold join
  split
  · split
    · dsimp only
      split
      · exact .answered hsender hjoined _ _
      · exact .silent hjoined _
    · exact .answered hsender hplayers _ _
  · exact .answered hsender hplayers _ _

theorem disconnected_within (hplayers : ∀ player ∈ a.players, P player.actor) :
    Within P (a.disconnected d sender) := by
  unfold disconnected
  split
  · rename_i player _
    have hrest := forall_players_erase hplayers player
    dsimp only
    split
    · exact .silent hrest _
    · exact .silent hrest _
  · exact .silent hplayers _

theorem update_within (hplayers : ∀ player ∈ a.players, P player.actor) (data senderName : String) (toSelf : Bool)
    (flags : Int) : Within P (a.update d sender data senderName toSelf flags) := by
  unfold update
  split
  · exact ⟨forall_told hplayers (List.filter_subset_self _) _, hplayers⟩
  · exact .silent hplayers _

theorem runningJson_within (hsender : P sender) (hplayers : ∀ player ∈ a.players, P player.actor)
    (raw : Option RoomMessage) : Within P (a.runningJson d sender answer raw) := by
  cases raw with
  | none => exact .answered hsender hplayers _ _
  | some message =>
    cases message with
    | message senderName data toSelf => exact ⟨forall_told hplayers (List.filter_subset_self _) _, hplayers⟩
    | startSession data => exact startSession_within hsender hplayers data
    | ejectPlayer playerName => exact eject_within hsender hplayers playerName
    | reconfigure newLimit newReserved => exact reconfigure_within hsender hplayers newLimit newReserved
    | _ => exact .silent hplayers _

/-- An actor writes to the sender of the message and to its players, and takes in nobody but the sender. -/
theorem receive_within (hsender : P sender) (hplayers : ∀ player ∈ a.players, P player.actor) (m : LobbyMessage) :
    Within P (a.receive d sender self answer m) := by
  unfold receive
  cases a.behaviour with
  | initial =>
    cases m with
    | init hostName roomName description playersLimit playersReserved userParam =>
      exact init_within hsender hplayers hostName roomName description playersLimit playersReserved userParam
    | _ => exact .silent hplayers _
  | running =>
    cases m with
    | init => exact .silent hplayers _
    | join playerName => exact join_within hsender hplayers playerName
    | close => exact ⟨forall_told hplayers (List.Subset.refl _) _, hplayers⟩
    | disconnected => exact disconnected_within hplayers
    | update room data senderName toSelf flags => exact update_within hplayers data senderName toSelf flags
    | json raw => exact runningJson_within hsender hplayers (raw.map (·.extract))
  | zombie =>
    cases m with
    | disconnected =>
      refine .silent ?_ _
      exact hplayers
    | _ => exact .silent hplayers _

end LobbyActor2

namespace Server

/-- All that the server does concerns connections of `P`: those that the mail is from, those of the players, and
    those written on. -/
structure Confined (P : Connection → Prop) (σ : Server) : Prop where
  mail : ∀ l, ∀ mail ∈ (σ.rooms l).mailbox, P mail.sender
  players : ∀ l, ∀ player ∈ (σ.rooms l).actor.players, P player.actor
  sent : ∀ w ∈ σ.sent, P w.receiver

variable {P Q : Connection → Prop} {σ : Server} {c : Connection} {l : LobbyRef}

theorem Confined.imp (h : Confined P σ) (himp : ∀ c, P c → Q c) : Confined Q σ where
  mail l mail hmail := himp _ (h.mail l mail hmail)
  players l player hplayer := himp _ (h.players l player hplayer)
  sent w hw := himp _ (h.sent w hw)

theorem confined_start (ipBackend : String) (portBackend : Int) : Confined P (.start ipBackend portBackend) where
  mail _ := List.forall_mem_nil _
  players _ := List.forall_mem_nil _
  sent := List.forall_mem_nil _

theorem Confined.turn (h : Confined P σ) (hc : P c) (o : ClientOutcome) : Confined P (σ.turn c o) where
  mail l := by
    rcases turn_room (σ := σ) (c := c) (o := o) (l := l) with hroom | ⟨message, -, hroom⟩
    · rw [hroom]
      exact h.mail l
    · rw [hroom]
      rcases Room.post_mailbox (σ.rooms l) ⟨c, message⟩ with hmailbox | hmailbox
      · rw [hmailbox]
        exact h.mail l
      · rw [hmailbox]
        exact List.forall_mem_append.mpr ⟨h.mail l, List.forall_mem_singleton.mpr hc⟩
  players l := by
    rw [turn_actor]
    exact h.players l
  sent := by
    refine List.forall_mem_append.mpr ⟨h.sent, fun w hw => ?_⟩
    obtain ⟨payload, -, rfl⟩ := List.mem_map.mp hw
    exact hc

theorem Confined.handle (h : Confined P σ) (l : LobbyRef) (answer : Option Int) : Confined P (σ.handle l answer) := by
  cases hmailbox : (σ.rooms l).mailbox with
  | nil =>
    rw [handle_idle hmailbox]
    exact h
  | cons mail rest =>
    have hmail := h.mail l
    rw [hmailbox] at hmail
    obtain ⟨hsender, hrest⟩ := List.forall_mem_cons.mp hmail
    have hwithin : LobbyActor2.Within P ((σ.rooms l).actor.receive σ.depot mail.sender l answer mail.message) :=
      LobbyActor2.receive_within hsender (h.players l) mail.message
    refine ⟨?_, ?_, ?_⟩
    · refine forall_handle (P := fun _ room => ∀ mail ∈ room.mailbox, P mail.sender) ?_ fun l' _ => h.mail l'
      rw [handle_room hmailbox]
      dsimp only
      split
      · exact List.forall_mem_nil _
      · refine List.forall_mem_append.mpr ⟨hrest, fun mail' hmail' => ?_⟩
        obtain ⟨message, -, rfl⟩ := List.mem_map.mp hmail'
        exact hsender
    · refine forall_handle (P := fun _ room => ∀ player ∈ room.actor.players, P player.actor) ?_
        fun l' _ => h.players l'
      rw [handle_room hmailbox]
      exact hwithin.2
    · rw [handle_sent hmailbox]
      exact List.forall_mem_append.mpr ⟨h.sent, hwithin.1⟩

end Server

namespace Entrance

variable {σ : Entrance} {c : Connection}

/-- The books of the frontend actor. -/
structure Counted (σ : Entrance) : Prop where
  distinct : (σ.handlers ++ σ.waiting).Nodup
  known : ∀ c ∈ σ.handlers ++ σ.waiting, c ∈ σ.connections
  untouched : ∀ c ∉ σ.handlers, (σ.server.clients c).stopped = false
  counter : σ.clientsCounter = σ.serving.length + σ.leaving
  bound : σ.clientsCounter ≤ maxClientsNumber

theorem counted_start (ipBackend : String) (portBackend : Int) : (start ipBackend portBackend).Counted where
  distinct := List.nodup_nil
  known := List.forall_mem_nil _
  untouched _ _ := rfl
  counter := rfl
  bound := (by decide : (0 : Int) ≤ maxClientsNumber)

/-- The client actors stop, and start to serve, as before. -/
theorem serving_congr {τ : Entrance} (hhandlers : τ.handlers = σ.handlers)
    (hstopped : ∀ c, (τ.server.clients c).stopped = (σ.server.clients c).stopped) : τ.serving = σ.serving := by
  unfold serving
  simp only [hhandlers, hstopped]

theorem Counted.congr {τ : Entrance} (h : σ.Counted) (hhandlers : τ.handlers = σ.handlers)
    (hconnections : τ.connections = σ.connections) (hwaiting : τ.waiting = σ.waiting)
    (hleaving : τ.leaving = σ.leaving) (hcounter : τ.clientsCounter = σ.clientsCounter)
    (hstopped : ∀ c, (τ.server.clients c).stopped = (σ.server.clients c).stopped) : τ.Counted where
  distinct := by
    rw [hhandlers, hwaiting]
    exact h.distinct
  known := by
    rw [hhandlers, hwaiting, hconnections]
    exact h.known
  untouched c hc := by
    rw [hhandlers] at hc
    rw [hstopped]
    exact h.untouched c hc
  counter := by
    rw [hcounter, hleaving, serving_congr hhandlers hstopped]
    exact h.counter
  bound := by
    rw [hcounter]
    exact h.bound

theorem Counted.connect (h : σ.Counted) (c : Connection) : (σ.connect c).Counted := by
  unfold Entrance.connect
  split
  · exact h
  · rename_i hnew
    have hwaiting : waiting { σ with connections := σ.connections ++ [c], mailbox := σ.mailbox ++ [.connected c] } =
        σ.waiting ++ [c] := by simp [waiting, FrontendMail.connection]
    refine ⟨?_, ?_, h.untouched, ?_, h.bound⟩
    · rw [hwaiting, ← List.append_assoc]
      refine List.Nodup.append h.distinct (List.nodup_singleton c) fun c' hc' hsame => hnew ?_
      rw [← List.mem_singleton.mp hsame]
      exact h.known c' hc'
    · rw [hwaiting, ← List.append_assoc]
      refine List.forall_mem_append.mpr ⟨fun c' hc' => ?_, List.forall_mem_singleton.mpr ?_⟩
      · exact List.mem_append_left _ (h.known c' hc')
      · exact List.mem_append_right _ (List.mem_singleton_self c)
    · have hleaving : leaving { σ with connections := σ.connections ++ [c], mailbox := σ.mailbox ++ [.connected c] } =
          σ.leaving := by simp [leaving, List.count_append]
      rw [hleaving]
      exact h.counter

theorem Counted.datagram (h : σ.Counted) (raw : Option FrontendDatagram) (remote : Address) :
    (σ.step (.datagram raw remote)).Counted := by
  refine h.congr rfl rfl ?_ ?_ rfl fun _ => rfl
  · simp [step, waiting, FrontendMail.connection]
  · simp [step, leaving, List.count_append]

/-- The first in line is let in or turned away. -/
theorem Counted.connected (h : σ.Counted) {c : Connection} {rest : List FrontendMail}
    (hmailbox : σ.mailbox = .connected c :: rest) : σ.turn.Counted := by
  have hwaiting : σ.waiting = c :: rest.filterMap FrontendMail.connection := by
    unfold waiting
    rw [hmailbox]
    rfl
  have hleaving : σ.leaving = rest.count .clientDisconnected := by
    unfold leaving
    rw [hmailbox, List.count_cons_of_ne (by simp)]
  have hdistinct := h.distinct
  have hknown := h.known
  have hcounter := h.counter
  rw [hwaiting] at hdistinct hknown
  rw [hleaving] at hcounter
  unfold turn
  rw [hmailbox]
  -- Whoever is let in is served from now on, and counted; whoever is turned away is forgotten.
  by_cases hspace : σ.clientsCounter < maxClientsNumber
  · simp only [Frontend.receive, Frontend.connected, if_pos hspace, Option.toList_some]
    have hfresh : c ∉ σ.handlers := fun hc => List.disjoint_of_nodup_append hdistinct hc List.mem_cons_self
    rw [List.append_cons] at hdistinct hknown
    refine ⟨hdistinct, hknown, ?_, ?_, hspace⟩
    · exact fun c' hc' => h.untouched c' fun hmem => hc' (List.mem_append_left _ hmem)
    · have hserving : (σ.handlers ++ [c]).filter (fun c => (σ.server.clients c).stopped = false) =
          σ.serving ++ [c] := by
        rw [List.filter_append, List.filter_singleton, h.untouched c hfresh]
        rfl
      unfold serving leaving
      dsimp only
      rw [hserving, List.length_append, hcounter]
      push_cast
      simp only [List.length_singleton]
      omega
  · simp only [Frontend.receive, Frontend.connected, if_neg hspace, Option.toList_none, List.append_nil]
    have hsub : (σ.handlers ++ rest.filterMap FrontendMail.connection).Sublist
        (σ.handlers ++ c :: rest.filterMap FrontendMail.connection) := (List.sublist_cons_self ..).append_left _
    exact ⟨hdistinct.sublist hsub, fun c' hc' => hknown c' (hsub.subset hc'), h.untouched, hcounter, h.bound⟩

theorem Counted.turn (h : σ.Counted) : σ.turn.Counted := by
  unfold Entrance.turn
  cases hmailbox : σ.mailbox with
  | nil => exact h
  | cons mail rest =>
    have hdistinct := h.distinct
    have hknown := h.known
    have hcounter := h.counter
    have hbound := h.bound
    unfold waiting at hdistinct hknown
    unfold leaving at hcounter
    rw [hmailbox] at hdistinct hknown hcounter
    cases mail with
    | connected c =>
      have hturn := h.connected hmailbox
      unfold Entrance.turn at hturn
      rwa [hmailbox] at hturn
    | clientDisconnected =>
      rw [List.count_cons_self] at hcounter
      simp only [Frontend.receive, Option.toList_none, List.append_nil]
      refine ⟨hdistinct, hknown, h.untouched, ?_, ?_⟩
      · change max 0 (σ.clientsCounter - 1) = σ.serving.length + (rest.count .clientDisconnected : Nat)
        omega
      · change max 0 (σ.clientsCounter - 1) ≤ maxClientsNumber
        exact max_le (by decide) (by omega)
    | datagram raw remote =>
      obtain ⟨replies, hreceive, -⟩ := Frontend.receive_datagram σ.clientsCounter σ.server.depot raw remote
      rw [List.count_cons_of_ne (by simp)] at hcounter
      simp only [hreceive, Option.toList_none, List.append_nil]
      exact ⟨hdistinct, hknown, h.untouched, hcounter, hbound⟩

theorem Counted.received (h : σ.Counted) (c : Connection) (raw : Option FrontendMessage) :
    (σ.received c raw).Counted := by
  unfold Entrance.received
  split
  · refine h.congr rfl rfl rfl rfl rfl fun c' => ?_
    simp only [Server.step, Server.turn]
    by_cases hsame : c' = c
    · rw [hsame, Function.update_self, Client.receive_stopped]
    · rw [Function.update_of_ne hsame]
  · exact h

/-- A client that goes is served no more, and its notice is under way. -/
theorem Counted.closed (h : σ.Counted) (c : Connection) : (σ.closed c).Counted := by
  unfold Entrance.closed
  split
  · rename_i hruns
    obtain ⟨hc, hruns⟩ := hruns
    have hstops : ((σ.server.step (.closed c)).clients c).stopped = true := by
      simp [Server.step, Server.turn, Client.shutdown, hruns]
    have hothers : ∀ c' ≠ c, (σ.server.step (.closed c)).clients c' = σ.server.clients c' :=
      fun c' hne => Function.update_of_ne hne _ _
    have hserving : (σ.handlers.filter fun c' => ((σ.server.step (.closed c)).clients c').stopped = false) =
        σ.serving.erase c := by
      unfold serving
      rw [(h.distinct.of_append_left.filter _).erase_eq_filter, List.filter_filter]
      refine List.filter_congr fun c' _ => ?_
      by_cases hsame : c' = c
      · rw [hsame, hstops]
        simp
      · rw [hothers c' hsame]
        simp [hsame]
    have hserved : c ∈ σ.serving := List.mem_filter.mpr ⟨hc, by simp [hruns]⟩
    have hpos := List.length_pos_of_mem hserved
    have hcounter := h.counter
    refine ⟨?_, ?_, fun c' hc' => ?_, ?_, h.bound⟩
    · simpa [waiting, List.filterMap_cons, FrontendMail.connection] using h.distinct
    · simpa [waiting, List.filterMap_cons, FrontendMail.connection] using h.known
    · dsimp only at hc' ⊢
      rw [hothers c' fun hsame => hc' (hsame ▸ hc)]
      exact h.untouched c' hc'
    · unfold serving leaving at hcounter ⊢
      dsimp only
      rw [hserving, List.length_erase_of_mem hserved, List.count_append, List.count_singleton_self]
      unfold serving at hpos ⊢
      omega
  · exact h

theorem Counted.step (h : σ.Counted) (action : EntranceAction) : (σ.step action).Counted := by
  cases action with
  | connect c => exact h.connect c
  | datagram raw remote => exact h.datagram raw remote
  | turn => exact h.turn
  | received c raw => exact h.received c raw
  | closed c => exact h.closed c
  | handle l answer => exact h.congr rfl rfl rfl rfl rfl fun _ => rfl

/-- Each connection that the actor has handled was let in and greeted, or turned away, and nothing else; only
    those let in can be in a room, be the sender of what a room handles, or be written on by one. -/
structure Received (σ : Entrance) : Prop where
  confined : σ.server.Confined (· ∈ σ.handlers)
  greeted : ∀ c ∈ σ.handlers, σ.repliesTo c = Frontend.welcome c
  refused : ∀ c ∈ σ.connections, c ∉ σ.handlers → c ∉ σ.waiting → σ.repliesTo c = Frontend.refusal c
  unheard : ∀ c, c ∉ σ.connections ∨ c ∈ σ.waiting → σ.repliesTo c = []

theorem received_start (ipBackend : String) (portBackend : Int) : (start ipBackend portBackend).Received where
  confined := Server.confined_start ipBackend portBackend
  greeted _ := nofun
  refused _ := nofun
  unheard _ _ := rfl

theorem Received.congr {τ : Entrance} (h : σ.Received) (hconfined : τ.server.Confined (· ∈ σ.handlers))
    (hhandlers : τ.handlers = σ.handlers) (hconnections : τ.connections = σ.connections)
    (hwaiting : τ.waiting = σ.waiting) (hreplies : τ.replies = σ.replies) : τ.Received where
  confined := by
    rw [hhandlers]
    exact hconfined
  greeted := by
    unfold repliesTo
    rw [hhandlers, hreplies]
    exact h.greeted
  refused := by
    unfold repliesTo
    rw [hhandlers, hreplies, hconnections, hwaiting]
    exact h.refused
  unheard := by
    unfold repliesTo
    rw [hreplies, hconnections, hwaiting]
    exact h.unheard

theorem Received.connect (h : σ.Received) (c : Connection) : (σ.connect c).Received := by
  unfold Entrance.connect
  split
  · exact h
  · rename_i hnew
    have hwaiting : waiting { σ with connections := σ.connections ++ [c], mailbox := σ.mailbox ++ [.connected c] } =
        σ.waiting ++ [c] := by simp [waiting, FrontendMail.connection]
    refine ⟨h.confined, h.greeted, fun c' hc' hhandlers hunheard => ?_, fun c' hc' => ?_⟩
    · rw [hwaiting] at hunheard
      obtain ⟨hwaits, hother⟩ := not_or.mp (List.mem_append.not.mp hunheard)
      rcases List.mem_append.mp hc' with hc' | hc'
      · exact h.refused c' hc' hhandlers hwaits
      · exact absurd hc' hother
    · refine h.unheard c' ?_
      rw [hwaiting] at hc'
      rcases hc' with hc' | hc'
      · exact Or.inl fun hmem => hc' (List.mem_append_left _ hmem)
      · rcases List.mem_append.mp hc' with hwaits | hsame
        · exact Or.inr hwaits
        · rw [List.mem_singleton.mp hsame]
          exact Or.inl hnew

/-- Replies to one connection, behind what has been sent. -/
theorem repliesTo_append {replies more : List FrontendReply} {c : Connection}
    (hmore : ∀ reply ∈ more, reply.connection = some c) (c' : Connection) :
    (replies ++ more).filter (fun reply => reply.connection = some c') =
      replies.filter (fun reply => reply.connection = some c') ++ if c' = c then more else [] := by
  rw [List.filter_append]
  congr 1
  split
  · rename_i hsame
    refine List.filter_eq_self.mpr fun reply hreply => ?_
    rw [hmore reply hreply, hsame]
    exact decide_eq_true rfl
  · rename_i hother
    refine List.filter_eq_nil_iff.mpr fun reply hreply hto => hother ?_
    rw [hmore reply hreply] at hto
    exact (Option.some.inj (of_decide_eq_true hto)).symm

/-- The first in line gets its replies, and no other connection does. -/
theorem Received.connected (h : σ.Received) (hcounted : σ.Counted) {c : Connection} {rest : List FrontendMail}
    (hmailbox : σ.mailbox = .connected c :: rest) : σ.turn.Received := by
  have hwaiting : σ.waiting = c :: rest.filterMap FrontendMail.connection := by
    unfold waiting
    rw [hmailbox]
    rfl
  have hdistinct := hcounted.distinct
  have hknown := hcounted.known c
  rw [hwaiting] at hdistinct hknown
  -- The first in line is none of those let in, and stands in line once.
  have hfresh : c ∉ σ.handlers := fun hc => List.disjoint_of_nodup_append hdistinct hc List.mem_cons_self
  have honce : c ∉ rest.filterMap FrontendMail.connection := (List.nodup_cons.mp hdistinct.of_append_right).1
  have hsilent : σ.repliesTo c = [] := h.unheard c (Or.inr (hwaiting ▸ List.mem_cons_self))
  have hunheard : ∀ c', c' ∉ σ.connections ∨ c' ∈ rest.filterMap FrontendMail.connection →
      c' ≠ c ∧ σ.repliesTo c' = [] := by
    rintro c' (hc' | hc')
    · refine ⟨fun hsame => hc' ?_, h.unheard c' (Or.inl hc')⟩
      rw [hsame]
      exact hknown (List.mem_append_right _ List.mem_cons_self)
    · exact ⟨fun hsame => honce (hsame ▸ hc'), h.unheard c' (Or.inr (hwaiting ▸ List.mem_cons_of_mem c hc'))⟩
  have hrefused : ∀ c' ∈ σ.connections, c' ∉ σ.handlers → c' ∉ rest.filterMap FrontendMail.connection → c' ≠ c →
      σ.repliesTo c' = Frontend.refusal c' := by
    intro c' hc' hhandlers hwaits hother
    refine h.refused c' hc' hhandlers ?_
    rw [hwaiting]
    exact List.mem_cons.not.mpr (not_or.mpr ⟨hother, hwaits⟩)
  unfold repliesTo at hsilent hunheard hrefused
  unfold turn
  rw [hmailbox]
  -- What is sent goes to `c` only: the greeting where there is a place, else the refusal.
  by_cases hspace : σ.clientsCounter < maxClientsNumber
  · simp only [Frontend.receive, Frontend.connected, if_pos hspace, Option.toList_some]
    have hreplies : ∀ c', (σ.replies ++ Frontend.welcome c).filter (fun reply => reply.connection = some c') =
        σ.replies.filter (fun reply => reply.connection = some c') ++ if c' = c then Frontend.welcome c else [] :=
      repliesTo_append Frontend.welcome_connection
    refine ⟨h.confined.imp fun c' hc' => List.mem_append_left _ hc', fun c' hc' => ?_,
      fun c' hc' hhandlers hwaits => ?_, fun c' hc' => ?_⟩
    · refine (hreplies c').trans ?_
      rcases List.mem_append.mp hc' with hc' | hc'
      · rw [if_neg (ne_of_mem_of_not_mem hc' hfresh), List.append_nil]
        exact h.greeted c' hc'
      · rw [List.mem_singleton.mp hc', if_pos rfl, hsilent]
        rfl
    · obtain ⟨hhandlers, hother⟩ := not_or.mp (List.mem_append.not.mp hhandlers)
      have hother : c' ≠ c := fun hsame => hother (List.mem_singleton.mpr hsame)
      refine (hreplies c').trans ?_
      rw [if_neg hother, List.append_nil]
      exact hrefused c' hc' hhandlers hwaits hother
    · obtain ⟨hother, hnone⟩ := hunheard c' hc'
      refine (hreplies c').trans ?_
      rw [if_neg hother, List.append_nil]
      exact hnone
  · simp only [Frontend.receive, Frontend.connected, if_neg hspace, Option.toList_none, List.append_nil]
    have hreplies : ∀ c', (σ.replies ++ Frontend.refusal c).filter (fun reply => reply.connection = some c') =
        σ.replies.filter (fun reply => reply.connection = some c') ++ if c' = c then Frontend.refusal c else [] :=
      repliesTo_append Frontend.refusal_connection
    refine ⟨h.confined, fun c' hc' => ?_, fun c' hc' hhandlers hwaits => ?_, fun c' hc' => ?_⟩
    · refine (hreplies c').trans ?_
      rw [if_neg (ne_of_mem_of_not_mem hc' hfresh), List.append_nil]
      exact h.greeted c' hc'
    · refine (hreplies c').trans ?_
      by_cases hsame : c' = c
      · rw [if_pos hsame, hsame, hsilent]
        rfl
      · rw [if_neg hsame, List.append_nil]
        exact hrefused c' hc' hhandlers hwaits hsame
    · obtain ⟨hother, hnone⟩ := hunheard c' hc'
      refine (hreplies c').trans ?_
      rw [if_neg hother, List.append_nil]
      exact hnone

theorem Received.turn (h : σ.Received) (hcounted : σ.Counted) : σ.turn.Received := by
  cases hmailbox : σ.mailbox with
  | nil =>
    unfold Entrance.turn
    rw [hmailbox]
    exact h
  | cons mail rest =>
    have hrefused := h.refused
    have hunheard := h.unheard
    unfold waiting repliesTo at hrefused hunheard
    rw [hmailbox] at hrefused hunheard
    cases mail with
    | connected c => exact h.connected hcounted hmailbox
    | clientDisconnected =>
      unfold Entrance.turn
      rw [hmailbox]
      simp only [Frontend.receive, Option.toList_none, List.append_nil]
      exact ⟨h.confined, h.greeted, hrefused, hunheard⟩
    | datagram raw remote =>
      -- The answer to a datagram goes to its sender, on no connection.
      obtain ⟨replies, hreceive, hnone⟩ := Frontend.receive_datagram σ.clientsCounter σ.server.depot raw remote
      have hreplies : ∀ c, (σ.replies ++ replies).filter (fun reply => reply.connection = some c) =
          σ.replies.filter (fun reply => reply.connection = some c) := by
        intro c
        rw [List.filter_append, List.append_right_eq_self]
        refine List.filter_eq_nil_iff.mpr fun reply hreply hto => ?_
        rw [hnone reply hreply] at hto
        cases of_decide_eq_true hto
      unfold Entrance.turn
      rw [hmailbox]
      simp only [hreceive, Option.toList_none, List.append_nil]
      refine ⟨h.confined, fun c hc => (hreplies c).trans (h.greeted c hc), fun c hc hhandlers hwaits => ?_,
        fun c hc => (hreplies c).trans (hunheard c hc)⟩
      exact (hreplies c).trans (hrefused c hc hhandlers hwaits)

theorem Received.step (h : σ.Received) (hcounted : σ.Counted) (action : EntranceAction) : (σ.step action).Received := by
  cases action with
  | connect c => exact h.connect c
  | datagram raw remote =>
    refine h.congr h.confined rfl rfl ?_ rfl
    simp [Entrance.step, waiting, FrontendMail.connection]
  | turn => exact h.turn hcounted
  | received c raw =>
    unfold Entrance.step Entrance.received
    dsimp only
    split
    · rename_i hc
      exact h.congr (h.confined.turn hc _) rfl rfl rfl rfl
    · exact h
  | closed c =>
    unfold Entrance.step Entrance.closed
    dsimp only
    split
    · rename_i hc
      refine h.congr (h.confined.turn hc.1 _) rfl rfl ?_ rfl
      simp [waiting, List.filterMap_cons, FrontendMail.connection]
    · exact h
  | handle l answer => exact h.congr (h.confined.handle l answer) rfl rfl rfl rfl

theorem books_run (ipBackend : String) (portBackend : Int) (actions : List EntranceAction) :
    (Machine.run step (start ipBackend portBackend) actions).Counted ∧
      (Machine.run step (start ipBackend portBackend) actions).Received :=
  Machine.run_keeps (P := fun σ : Entrance => σ.Counted ∧ σ.Received)
    (fun _ action h => ⟨h.1.step action, h.2.step h.1 action⟩)
    ⟨counted_start ipBackend portBackend, received_start ipBackend portBackend⟩ actions

/-- One that has no client actor has been turned away, or has not been heard of. -/
theorem Received.turned (h : σ.Received) (hc : c ∉ σ.handlers) :
    σ.repliesTo c = Frontend.refusal c ∨ ((c ∉ σ.connections ∨ c ∈ σ.waiting) ∧ σ.repliesTo c = []) := by
  by_cases hunheard : c ∉ σ.connections ∨ c ∈ σ.waiting
  · exact Or.inr ⟨hunheard, h.unheard c hunheard⟩
  · obtain ⟨hknown, hwaits⟩ := not_or.mp hunheard
    exact Or.inl (h.refused c (not_not.mp hknown) hc hwaits)

/-- Whatever comes in, in whatever order: the counter is the number of the clients that are served and of those
    whose departure is still in the mailbox, and it never exceeds the limit. -/
theorem clients_counted (ipBackend : String) (portBackend : Int) (actions : List EntranceAction) :
    let σ := Machine.run step (start ipBackend portBackend) actions
    σ.serving.Nodup ∧ σ.clientsCounter = σ.serving.length + σ.leaving ∧ σ.clientsCounter ≤ maxClientsNumber := by
  obtain ⟨hcounted, -⟩ := books_run ipBackend portBackend actions
  exact ⟨hcounted.distinct.of_append_left.filter _, hcounted.counter, hcounted.bound⟩

/-- Whatever comes in, in whatever order: each connection that the actor has heard of was let in and greeted, or
    was turned away; and one that was not let in is in no room, nothing that waits in a mailbox is from it, and
    nothing is written on it. -/
theorem refused_untouched (ipBackend : String) (portBackend : Int) (actions : List EntranceAction) :
    let σ := Machine.run step (start ipBackend portBackend) actions
    ∀ c, (c ∈ σ.handlers → σ.repliesTo c = Frontend.welcome c) ∧ (c ∉ σ.handlers →
      (σ.repliesTo c = Frontend.refusal c ∨ ((c ∉ σ.connections ∨ c ∈ σ.waiting) ∧ σ.repliesTo c = [])) ∧
      (∀ w ∈ σ.server.sent, w.receiver ≠ c) ∧
      ∀ l, (∀ player ∈ (σ.server.rooms l).actor.players, player.actor ≠ c) ∧
        ∀ mail ∈ (σ.server.rooms l).mailbox, mail.sender ≠ c) := by
  intro σ c
  obtain ⟨-, hreceived⟩ := books_run ipBackend portBackend actions
  have hother : ∀ c', c' ∈ σ.handlers → c ∉ σ.handlers → c' ≠ c := fun c' hc' hc => ne_of_mem_of_not_mem hc' hc
  refine ⟨hreceived.greeted c, fun hc =>
    ⟨hreceived.turned hc, fun w hw => hother _ (hreceived.confined.sent w hw) hc, fun l => ⟨?_, ?_⟩⟩⟩
  · exact fun player hplayer => hother _ (hreceived.confined.players l player hplayer) hc
  · exact fun mail hmail => hother _ (hreceived.confined.mail l mail hmail) hc

end Entrance

end MultiSlider
