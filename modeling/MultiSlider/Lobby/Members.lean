import MultiSlider.Lobby.Views

/-! The players of a room: who they are, how many, and who came first. The list only grows at its end and only
    loses single players, so its head, the host, is always the one who has been in the room for longest. -/

namespace MultiSlider

/-- The limits that `Lobby::createRoom` and `Lobby::reconfigure` let through, in the range of an `Int`. -/
def ValidLimits (playersLimit playersReserved : Int) : Prop :=
  1 ≤ playersLimit ∧ playersLimit < 2 ^ 31 ∧ 0 ≤ playersReserved ∧ playersReserved ≤ playersLimit - 1

instance (playersLimit playersReserved : Int) : Decidable (ValidLimits playersLimit playersReserved) := by
  unfold ValidLimits
  infer_instance

/-- If the message sets limits, they are valid. -/
def LobbyMessage.SetsValid : LobbyMessage → Prop
  | .init _ _ _ playersLimit playersReserved _ => ValidLimits playersLimit playersReserved
  | .json (some (.reconfigure playersLimit playersReserved)) => ValidLimits playersLimit playersReserved
  | _ => True

instance (m : LobbyMessage) : Decidable m.SetsValid := by
  unfold LobbyMessage.SetsValid
  split <;> infer_instance

theorem ValidLimits.toInt_sub {playersLimit playersReserved : Int} (h : ValidLimits playersLimit playersReserved) :
    toInt (playersLimit - playersReserved) = playersLimit - playersReserved := by
  obtain ⟨hone, hlimit, hreserved, hless⟩ := h
  exact toInt_of_range (by omega) (by omega)

theorem ValidLimits.extract {playersLimit playersReserved : Int} (h : ValidLimits playersLimit playersReserved) :
    toInt playersLimit = playersLimit ∧ toInt playersReserved = playersReserved := by
  obtain ⟨hone, hlimit, hreserved, hless⟩ := h
  exact ⟨toInt_of_range (by omega) (by omega), toInt_of_range (by omega) (by omega)⟩

namespace LobbyActor2

variable {a : LobbyActor2} {d : Depot} {sender : Connection} {self : LobbyRef} {answer : Option Int}

/-- What becomes of the list: it is as it was, or has grown by one who was admitted, or has lost one player. -/
theorem Handled.players {m : LobbyMessage} {o : LobbyOutcome} (h : Handled a d sender m o) :
    o.lobby.players = a.players ∨
    (∃ playerName, m = .join playerName ∧ a.Admits playerName ∧
      o.lobby.players = a.players ++ [⟨sender, playerName, false⟩]) ∨
    (∃ player ∈ a.players, o.lobby.players = a.players.erase player) := by
  cases h with
  | joined admits next _ =>
    subst next
    exact Or.inr (Or.inl ⟨_, rfl, admits, rfl⟩)
  | left found next _ =>
    subst next
    exact Or.inr (Or.inr ⟨_, List.mem_of_find?_eq_some found, rfl⟩)
  | @emptied player own last =>
    refine Or.inr (Or.inr ⟨player, ?_, ?_⟩)
    · rw [last]
      exact List.mem_singleton_self _
    · rw [last, List.erase_cons_head]
  | ejected _ _ _ found next _ =>
    subst next
    exact Or.inr (Or.inr ⟨_, List.mem_of_find?_eq_some found, rfl⟩)
  | reconfigured _ _ next _ =>
    subst next
    exact Or.inl rfl
  | _ => exact Or.inl rfl

/-- An actor that goes on has players. -/
theorem Handled.inhabited {m : LobbyMessage} {o : LobbyOutcome} (h : Handled a d sender m o) (hplayers : a.players ≠ [])
    (hlive : o.lobby.stopped = false) : o.lobby.players ≠ [] := by
  rcases h.published with ⟨hlobby, -⟩ | ⟨-, -, room, hroom, -⟩ | ⟨-, -, -, hne, -⟩ | ⟨hstopped, -⟩
  · rwa [hlobby]
  · intro hempty
    cases hroom.symm.trans (makeRoomInfo_eq_none.mpr hempty)
  · exact hne
  · cases hlive.symm.trans hstopped

variable (d sender self answer) in
/-- The limits are as they were, or those of a `Reconfigure` that the players fit in. -/
theorem receive_limits (hrunning : a.behaviour = .running) (m : LobbyMessage) :
    let o := a.receive d sender self answer m
    (o.lobby.playersLimit = a.playersLimit ∧ o.lobby.playersReserved = a.playersReserved) ∨
    ∃ newLimit newReserved, m = .json (some (.reconfigure newLimit newReserved)) ∧
      o.lobby.playersLimit = toInt newLimit ∧ o.lobby.playersReserved = toInt newReserved ∧
      o.lobby.players = a.players ∧ a.players.length ≤ toInt (toInt newLimit - toInt newReserved) := by
  have hreceive : a.receive d sender self answer m = a.running d sender answer m := by
    unfold receive
    rw [hrunning]
  rw [hreceive]
  have hhandled : Handled a d sender m (a.running d sender answer m) := running_handled answer m
  dsimp only
  generalize ho : a.running d sender answer m = o at hhandled
  cases hhandled with
  | joined _ next _ => exact Or.inl (by rw [next]; exact ⟨rfl, rfl⟩)
  | left _ next _ => exact Or.inl (by rw [next]; exact ⟨rfl, rfl⟩)
  | ejected _ _ _ _ next _ => exact Or.inl (by rw [next]; exact ⟨rfl, rfl⟩)
  | @reconfigured newLimit newReserved host b room head byHost next info =>
    have hfits : a.players.length ≤ toInt (toInt newLimit - toInt newReserved) := by
      by_contra hmore
      have hrefused : a.running d sender answer (.json (some (.reconfigure newLimit newReserved))) =
          ⟨a, d, [⟨sender, .json .reconfigureSuck⟩], []⟩ := by
        show a.reconfigure d sender (toInt newLimit) (toInt newReserved) = _
        unfold reconfigure
        rw [head]
        dsimp only
        rw [if_pos byHost, if_pos (Int.not_le.mp hmore)]
        rfl
      have hwrites := congrArg LobbyOutcome.writes (ho.symm.trans hrefused)
      -- The host is told of a success, which the refusal does not say.
      have hhost : (⟨sender, .json .reconfigureSuck⟩ : Write) ∈
          b.players.map fun player => ⟨player.actor, .json (.reconfigureSucc room)⟩ := by
        rw [show (b.players.map fun player => ⟨player.actor, .json (.reconfigureSucc room)⟩ : List Write) = _
          from hwrites]
        exact List.mem_singleton_self _
      obtain ⟨player, -, heq⟩ := List.mem_map.mp hhost
      cases heq
    refine Or.inr ⟨newLimit, newReserved, rfl, ?_⟩
    rw [next]
    exact ⟨rfl, rfl, rfl, hfits⟩
  | _ => exact Or.inl ⟨rfl, rfl⟩

/-- What a running actor forwards sets no limits. -/
theorem Handled.forwards_setsValid {m : LobbyMessage} {o : LobbyOutcome} (h : Handled a d sender m o) :
    ∀ message ∈ o.forwards, message.SetsValid := by
  cases h with
  | joined _ _ _ => exact List.forall_mem_singleton.mpr trivial
  | left _ _ _ => exact List.forall_mem_singleton.mpr trivial
  | ejected _ _ _ _ _ _ => exact List.forall_mem_singleton.mpr trivial
  | forwarded => exact List.forall_mem_singleton.mpr trivial
  | leaving => exact List.forall_mem_singleton.mpr trivial
  | _ => exact List.forall_mem_nil _

variable (d sender self) in
/-- The limits of a new actor are those of the `Init`. -/
theorem init_limits (hostName roomName description : String) (playersLimit playersReserved : Int)
    (userParam : String) :
    let o := a.init d sender self hostName roomName description playersLimit playersReserved userParam
    o.lobby.playersLimit = playersLimit ∧ o.lobby.playersReserved = playersReserved := by
  unfold init
  dsimp only
  split
  · split <;> exact ⟨rfl, rfl⟩
  · exact ⟨rfl, rfl⟩

end LobbyActor2

/-- A room, how many messages its actor has handled, and since which of them each player is in the room. -/
structure Tenancy where
  room : Room
  time : Nat
  joinedAt : PlayerInfo2 → Nat

namespace Tenancy

/-- A new room at time 0. -/
def start : Tenancy := ⟨.create, 0, fun _ => 0⟩

/-- The room after its actor has handled a message. -/
def observe (v : Tenancy) (room : Room) : Tenancy :=
  ⟨room, v.time + 1, fun player =>
    if player ∈ room.actor.players ∧ player ∉ v.room.actor.players then v.time else v.joinedAt player⟩

/-- One action on the room whose actor is `self`. -/
def step (self : LobbyRef) (v : Tenancy) : RoomAction → Tenancy
  | .post mail => { v with room := v.room.post mail }
  | .handle d answer => v.observe (v.room.handle d self answer).1

/-- Nobody sends limits that a client would not let through. -/
def ValidPosts (_ : Tenancy) : RoomAction → Prop
  | .post mail => mail.message.SetsValid
  | .handle _ _ => True

instance (v : Tenancy) : (action : RoomAction) → Decidable (ValidPosts v action)
  | .post mail => inferInstanceAs (Decidable mail.message.SetsValid)
  | .handle _ _ => inferInstanceAs (Decidable True)

/-- The room has a host, who joined before all others; the names are distinct, and all players fit in beside the
    reserved places. -/
structure WellFormed (v : Tenancy) : Prop where
  host : ∃ host, v.room.actor.getHost = some host ∧
    ∀ player ∈ v.room.actor.players, player ≠ host → v.joinedAt host < v.joinedAt player
  names : (v.room.actor.players.map (·.name)).Nodup
  space : v.room.actor.players.length ≤ v.room.actor.playersLimit - v.room.actor.playersReserved

/-- The players of an open room are listed in the order in which they joined. -/
structure Ordered (v : Tenancy) : Prop where
  inhabited : v.room.actor.players ≠ []
  names : (v.room.actor.players.map (·.name)).Nodup
  limits : ValidLimits v.room.actor.playersLimit v.room.actor.playersReserved
  space : v.room.actor.players.length ≤ v.room.actor.playersLimit - v.room.actor.playersReserved
  order : v.room.actor.players.Pairwise (v.joinedAt · < v.joinedAt ·)
  past : ∀ player ∈ v.room.actor.players, v.joinedAt player < v.time

/-- No message sets invalid limits, a new room has no players, and an open one is in order. -/
structure Orderly (v : Tenancy) : Prop where
  posted : ∀ mail ∈ v.room.mailbox, mail.message.SetsValid
  initial : v.room.actor.behaviour = .initial → v.room.actor.players = []
  ordered : v.room.Open → Ordered v

variable {v : Tenancy} {self : LobbyRef} {d : Depot} {answer : Option Int}

theorem Ordered.wellFormed (h : Ordered v) : WellFormed v where
  host := by
    obtain ⟨host, others, hplayers⟩ := List.exists_cons_of_ne_nil h.inhabited
    refine ⟨host, ?_, fun player hplayer hne => ?_⟩
    · unfold LobbyActor2.getHost
      rw [hplayers]
      rfl
    · have horder := h.order
      rw [hplayers] at horder hplayer
      rcases List.mem_cons.mp hplayer with heq | hother
      · exact absurd heq hne
      · exact List.rel_of_pairwise_cons horder hother
  names := h.names
  space := h.space

theorem Orderly.post (h : Orderly v) {mail : Mail} (hvalid : mail.message.SetsValid) :
    Orderly { v with room := v.room.post mail } where
  posted mail' hmail' := by
    rcases Room.post_mailbox v.room mail with hmailbox | hmailbox
    · rw [hmailbox] at hmail'
      exact h.posted mail' hmail'
    · rw [hmailbox] at hmail'
      rcases List.mem_append.mp hmail' with hmail' | hmail'
      · exact h.posted mail' hmail'
      · rwa [List.mem_singleton.mp hmail']
  initial hinitial := by
    rw [Room.post_actor] at hinitial ⊢
    exact h.initial hinitial
  ordered hopen := by
    have hopen' : v.room.Open := by
      unfold Room.Open at hopen
      rwa [Room.post_actor] at hopen
    obtain ⟨hinhabited, hnames, hlimits, hspace, horder, hpast⟩ := h.ordered hopen'
    refine ⟨?_, ?_, ?_, ?_, ?_, ?_⟩ <;> dsimp only <;> rw [Room.post_actor] <;> assumption

/-! ### One message -/

theorem observe_joinedAt {room : Room} {player : PlayerInfo2} (h : player ∈ v.room.actor.players) :
    (v.observe room).joinedAt player = v.joinedAt player := if_neg fun hnew => hnew.2 h

/-- The players who stay are listed as before. -/
theorem Ordered.stay (h : Ordered v) (room : Room) (hsub : room.actor.players.Sublist v.room.actor.players) :
    room.actor.players.Pairwise ((v.observe room).joinedAt · < (v.observe room).joinedAt ·) ∧
      ∀ player ∈ room.actor.players, (v.observe room).joinedAt player < v.time + 1 := by
  refine ⟨List.Pairwise.imp_of_mem (fun hplayer hother hless => ?_) (h.order.sublist hsub), fun player hplayer => ?_⟩
  · rwa [observe_joinedAt (hsub.subset hplayer), observe_joinedAt (hsub.subset hother)]
  · rw [observe_joinedAt (hsub.subset hplayer)]
    exact Nat.lt_succ_of_lt (h.past player (hsub.subset hplayer))

/-- Who is new comes last. -/
theorem Ordered.joined (h : Ordered v) (room : Room) {newcomer : PlayerInfo2}
    (hnew : newcomer ∉ v.room.actor.players) (hplayers : room.actor.players = v.room.actor.players ++ [newcomer]) :
    room.actor.players.Pairwise ((v.observe room).joinedAt · < (v.observe room).joinedAt ·) ∧
      ∀ player ∈ room.actor.players, (v.observe room).joinedAt player < v.time + 1 := by
  have htime : (v.observe room).joinedAt newcomer = v.time := by
    refine if_pos ⟨?_, hnew⟩
    rw [hplayers]
    exact List.mem_append_right _ (List.mem_singleton_self _)
  have hold (player : PlayerInfo2) (hplayer : player ∈ v.room.actor.players) :
      (v.observe room).joinedAt player < v.time := by
    rw [observe_joinedAt hplayer]
    exact h.past player hplayer
  rw [hplayers]
  refine ⟨List.pairwise_append.mpr ⟨?_, List.pairwise_singleton _ _, fun player hplayer other hother => ?_⟩,
    fun player hplayer => ?_⟩
  · refine List.Pairwise.imp_of_mem (fun hplayer hother hless => ?_) h.order
    rwa [observe_joinedAt hplayer, observe_joinedAt hother]
  · rw [List.mem_singleton.mp hother, htime]
    exact hold player hplayer
  · rcases List.mem_append.mp hplayer with hplayer | hplayer
    · exact Nat.lt_succ_of_lt (hold player hplayer)
    · rw [List.mem_singleton.mp hplayer, htime]
      exact Nat.lt_succ_self _

/-- Whatever message a running actor handles, if it goes on. -/
theorem Ordered.running (h : Ordered v) (hrunning : v.room.actor.behaviour = .running) {sender : Connection}
    {m : LobbyMessage} (hvalid : m.SetsValid) {o : LobbyOutcome}
    (ho : v.room.actor.receive d sender self answer m = o) (hhandled : v.room.actor.Handled d sender m o)
    (hlive : o.lobby.stopped = false) (mailbox : List Mail) : Ordered (v.observe ⟨o.lobby, mailbox⟩) := by
  have hlimits := LobbyActor2.receive_limits d sender self answer hrunning m
  dsimp only at hlimits
  rw [ho] at hlimits
  have hinhabited := hhandled.inhabited h.inhabited hlive
  have hspace := h.space
  -- The limits change by a reconfiguration only, which changes no player.
  rcases hlimits with ⟨hlimit, hreserved⟩ | ⟨newLimit, newReserved, rfl, hlimit, hreserved, hplayers, hfits⟩
  · have hlimits' : ValidLimits o.lobby.playersLimit o.lobby.playersReserved := by
      rw [hlimit, hreserved]
      exact h.limits
    -- With the same limits the list stays, gets a newcomer at its end, or loses one player.
    rcases hhandled.players with hplayers | ⟨playerName, -, ⟨hless, hfresh⟩, hplayers⟩ | ⟨player, hplayer, hplayers⟩
    · have hstay := h.stay ⟨o.lobby, mailbox⟩ (hplayers ▸ List.Sublist.refl _)
      refine ⟨hinhabited, ?_, hlimits', ?_, hstay.1, hstay.2⟩
      · dsimp only [observe]
        rw [hplayers]
        exact h.names
      · dsimp only [observe]
        rwa [hplayers, hlimit, hreserved]
    · have hnew : (⟨sender, playerName, false⟩ : PlayerInfo2) ∉ v.room.actor.players := fun hmem => hfresh _ hmem rfl
      have hjoined := h.joined ⟨o.lobby, mailbox⟩ hnew hplayers
      refine ⟨hinhabited, ?_, hlimits', ?_, hjoined.1, hjoined.2⟩
      · dsimp only [observe]
        rw [hplayers]
        exact Watched.nodup_map_newcomer h.names hfresh
      -- `Admits` compares what the casts make of the limits, which on valid ones is the difference.
      · rw [h.limits.toInt_sub] at hless
        dsimp only [observe]
        rw [hplayers, hlimit, hreserved, List.length_append, List.length_singleton]
        push_cast
        omega
    · have hstay := h.stay ⟨o.lobby, mailbox⟩ (hplayers ▸ List.erase_sublist)
      refine ⟨hinhabited, ?_, hlimits', ?_, hstay.1, hstay.2⟩
      · dsimp only [observe]
        rw [hplayers]
        exact h.names.sublist (List.erase_sublist.map _)
      · have hlength : (v.room.actor.players.erase player).length ≤ v.room.actor.players.length := List.length_erase_le
        dsimp only [observe]
        rw [hplayers, hlimit, hreserved]
        omega
  · obtain ⟨hlimit', hreserved'⟩ := ValidLimits.extract hvalid
    have hstay := h.stay ⟨o.lobby, mailbox⟩ (hplayers ▸ List.Sublist.refl _)
    rw [hlimit'] at hlimit hfits
    rw [hreserved'] at hreserved hfits
    refine ⟨hinhabited, ?_, ?_, ?_, hstay.1, hstay.2⟩
    · dsimp only [observe]
      rw [hplayers]
      exact h.names
    · dsimp only [observe]
      rw [hlimit, hreserved]
      exact hvalid
    · dsimp only [observe]
      rw [hplayers, hlimit, hreserved]
      rwa [ValidLimits.toInt_sub hvalid] at hfits

/-- A room that opens has one player, its creator. -/
theorem Orderly.opened (h : Orderly v) {sender : Connection} {hostName roomName description userParam : String}
    {playersLimit playersReserved : Int} (hvalid : ValidLimits playersLimit playersReserved)
    (hinitial : v.room.actor.behaviour = .initial) {o : LobbyOutcome} (mailbox : List Mail)
    (ho : v.room.actor.init d sender self hostName roomName description playersLimit playersReserved userParam = o)
    (hopened : LobbyActor2.Opened v.room.actor d sender self o) : Ordered (v.observe ⟨o.lobby, mailbox⟩) := by
  obtain ⟨name, hplayers⟩ := hopened.players
  rw [h.initial hinitial, List.nil_append] at hplayers
  have hlimits := LobbyActor2.init_limits d sender self (a := v.room.actor) hostName roomName
    description playersLimit playersReserved userParam
  dsimp only at hlimits
  rw [ho] at hlimits
  obtain ⟨hlimit, hreserved⟩ := hlimits
  have htime : (v.observe ⟨o.lobby, mailbox⟩).joinedAt ⟨sender, name, false⟩ = v.time := by
    refine if_pos ⟨?_, ?_⟩
    · dsimp only
      rw [hplayers]
      exact List.mem_singleton_self _
    · rw [h.initial hinitial]
      exact List.not_mem_nil
  refine ⟨?_, ?_, ?_, ?_, ?_, ?_⟩
  · dsimp only [observe]
    rw [hplayers]
    exact List.cons_ne_nil _ _
  · dsimp only [observe]
    rw [hplayers]
    exact List.nodup_singleton _
  · dsimp only [observe]
    rw [hlimit, hreserved]
    exact hvalid
  -- There is room for the creator, since a valid limit exceeds the reserved places.
  · obtain ⟨-, -, -, hless⟩ := hvalid
    dsimp only [observe]
    rw [hplayers, hlimit, hreserved, List.length_singleton]
    push_cast
    omega
  · dsimp only [observe]
    rw [hplayers]
    exact List.pairwise_singleton _ _
  · intro player hplayer
    dsimp only [observe] at hplayer
    rw [hplayers] at hplayer
    rw [List.mem_singleton.mp hplayer, htime]
    exact Nat.lt_succ_self _

/-- What an actor forwards to itself sets no limits. -/
theorem forwards_setsValid (d : Depot) (self : LobbyRef) (answer : Option Int) (a : LobbyActor2)
    (sender : Connection) (m : LobbyMessage) :
    ∀ message ∈ (a.receive d sender self answer m).forwards, message.SetsValid := by
  rcases LobbyActor2.receive_cases a d sender self answer m with ⟨-, hhandled⟩ | ⟨-, -, hopened⟩ | ⟨-, -, hforwards, -⟩
  · exact hhandled.forwards_setsValid
  · rw [hopened.forwards]
    exact List.forall_mem_nil _
  · rw [hforwards]
    exact List.forall_mem_nil _

/-- No message is there to be handled. -/
theorem Orderly.idle (h : Orderly v) : Orderly (v.observe v.room) where
  posted := h.posted
  initial := h.initial
  ordered hopen := by
    have hordered := h.ordered hopen
    have hstay := hordered.stay v.room (List.Sublist.refl _)
    exact ⟨hordered.inhabited, hordered.names, hordered.limits, hordered.space, hstay.1, hstay.2⟩

theorem Orderly.handle (h : Orderly v) : Orderly (v.step self (.handle d answer)) := by
  simp only [step, Room.handle]
  cases hmailbox : v.room.mailbox with
  | nil => exact h.idle
  | cons mail rest =>
    obtain ⟨sender, message⟩ := mail
    have hposted := h.posted
    rw [hmailbox] at hposted
    have hvalid : message.SetsValid := hposted _ List.mem_cons_self
    have hforwards := forwards_setsValid d self answer v.room.actor sender message
    have hcases := LobbyActor2.receive_cases v.room.actor d sender self answer message
    dsimp only at hcases ⊢
    generalize ho : v.room.actor.receive d sender self answer message = o at hforwards hcases
    refine ⟨fun mail hmail => ?_, fun hinitial => ?_, fun hopen => ?_⟩
    · dsimp only [observe] at hmail
      split at hmail
      · cases hmail
      · rcases List.mem_append.mp hmail with hmail | hmail
        · exact hposted mail (List.mem_cons_of_mem _ hmail)
        · obtain ⟨message', hmessage', rfl⟩ := List.mem_map.mp hmail
          exact hforwards message' hmessage'
    · dsimp only [observe] at hinitial ⊢
      rcases hcases with ⟨hrunning, hhandled⟩ | ⟨-, -, hopened⟩ | ⟨-, -, -, ⟨hbefore, hlobby⟩ | hzombie⟩
      · cases hrunning.symm.trans (hhandled.behaviour.symm.trans hinitial)
      · cases hopened.running.symm.trans hinitial
      · rw [hlobby]
        exact h.initial hbefore
      · cases hzombie.symm.trans hinitial
    · rcases hcases with ⟨hrunning, hhandled⟩ | ⟨hinitial, ⟨hostName, roomName, description, playersLimit,
        playersReserved, userParam, rfl⟩, hopened⟩ | ⟨hnot, -, -, hlobby⟩
      · have hlive : v.room.actor.stopped = false := by
          cases hstopped : v.room.actor.stopped with
          | false => rfl
          | true => cases (hhandled.stopped hstopped).symm.trans hopen.2
        exact (h.ordered ⟨hrunning, hlive⟩).running hrunning hvalid ho hhandled hopen.2 _
      · have hinit : v.room.actor.init d sender self hostName roomName description playersLimit playersReserved
            userParam = o := by
          rw [← ho]
          unfold LobbyActor2.receive
          rw [hinitial]
        exact h.opened hvalid hinitial _ hinit hopened
      · rcases hlobby with ⟨-, hlobby⟩ | hzombie
        · exact absurd (hlobby ▸ hopen.1) hnot
        · cases hzombie.symm.trans hopen.1

/-- In every run of a room in which nobody sends limits that a client would not let through: while the room is
    open it is well formed. -/
theorem members_wellFormed (self : LobbyRef) (as : List RoomAction)
    (h : Machine.Along (step self) ValidPosts start as) :
    Machine.Always (step self) (fun v => v.room.Open → WellFormed v) start as := by
  have horderly : Machine.Always (step self) Orderly start as := by
    refine Machine.always_of_along (fun v action hv hvalid => ?_) ?_ h
    · cases action with
      | post mail => exact hv.post hvalid
      | handle d answer => exact hv.handle
    · exact ⟨List.forall_mem_nil _, fun _ => rfl, fun hopen => nomatch hopen.1⟩
  exact horderly.imp fun v hv hopen => (hv.ordered hopen).wellFormed

/-- The host goes away, and the second to come is the host. -/
theorem members_wellFormed_migrated :
    let d := Depot.create "localhost" 8700
    let as : List RoomAction := [.post ⟨0, .init "a" "R" "" 4 1 ""⟩, .handle d none, .post ⟨1, .join "b"⟩,
      .post ⟨2, .join "c"⟩, .handle d none, .handle d none, .post ⟨0, .disconnected⟩,
      .post ⟨1, .json (some (.reconfigure 2 0))⟩, .handle d none, .handle d none, .handle d none, .handle d none]
    let v := Machine.run (step 0) start as
    WellFormed v ∧ v.room.actor.players = [⟨1, "b", false⟩, ⟨2, "c", false⟩] ∧ v.room.actor.playersLimit = 2 := by
  intro d as v
  have halways := members_wellFormed 0 as (by decide +kernel)
  exact ⟨Machine.always_iff_prefix.mp halways as (List.prefix_refl as) (by decide +kernel),
    by decide +kernel, by decide +kernel⟩

end Tenancy

end MultiSlider
