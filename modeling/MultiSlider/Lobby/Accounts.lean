import Mathlib.Algebra.BigOperators.Group.Finset.Basic
import MultiSlider.Lobby.Lifecycle
import MultiSlider.Lobby.Members

/-! Where the seats go. A connection gets a seat with each room description that answers its request, and loses it by
    leaving, which it asked for, or with an `Ejected`. -/

namespace MultiSlider

/-- A room description is the answer to a request of `c`: it is in the room now. -/
def Write.seats (c : Connection) (w : Write) : Bool :=
  match w.payload with
  | .room _ => w.receiver = c
  | _ => false

/-- `c` is told that it is not in the room any more. -/
def Write.unseats (c : Connection) (w : Write) : Bool :=
  match w.payload with
  | .json (.ejected _) => w.receiver = c
  | _ => false

/-- A sum of which one term changes. -/
theorem sum_of_one {f g : Nat → Nat} {n i : Nat} (hi : i < n) (hothers : ∀ j ≠ i, g j = f j) :
    ∑ j ∈ Finset.range n, g j + f i = ∑ j ∈ Finset.range n, f j + g i := by
  have hmem : i ∈ Finset.range n := Finset.mem_range.mpr hi
  have hrest : ∑ j ∈ (Finset.range n).erase i, g j = ∑ j ∈ (Finset.range n).erase i, f j :=
    Finset.sum_congr rfl fun j hj => hothers j (Finset.ne_of_mem_erase hj)
  have hg := Finset.add_sum_erase _ g hmem
  have hf := Finset.add_sum_erase _ f hmem
  omega

namespace LobbyActor2

variable {a : LobbyActor2} {d : Depot} {sender c : Connection} {self : LobbyRef} {answer : Option Int}

/-- The seats of `c`. -/
def seatsOf (a : LobbyActor2) (c : Connection) : Nat := a.players.countP (·.actor = c)

/-- The same, if the room is open. -/
def openSeats (a : LobbyActor2) (c : Connection) : Nat :=
  if a.behaviour = .running ∧ a.stopped = false then a.seatsOf c else 0

/-- Who gives up a seat with this message: a player who leaves, or whose connection has ended. -/
def departs (a : LobbyActor2) (sender : Connection) : LobbyMessage → List Connection
  | .disconnected => if a.players.any (·.actor = sender) then [sender] else []
  | _ => []

theorem openSeats_of_open (hrunning : a.behaviour = .running) (hlive : a.stopped = false) :
    a.openSeats c = a.seatsOf c := if_pos ⟨hrunning, hlive⟩

theorem openSeats_of_running (hrunning : a.behaviour = .running) :
    a.openSeats c = if a.stopped then 0 else a.seatsOf c := by
  unfold openSeats
  cases a.stopped <;> simp [hrunning]

theorem openSeats_of_closed (hclosed : a.behaviour ≠ .running) : a.openSeats c = 0 := if_neg fun h => hclosed h.1

theorem countP_erase {players : List PlayerInfo2} {player : PlayerInfo2} (h : player ∈ players) :
    players.countP (·.actor = c) = (players.erase player).countP (·.actor = c) + if player.actor = c then 1 else 0 := by
  rw [(List.perm_cons_erase h).countP_eq, List.countP_cons]
  simp

variable (a d sender c answer) in
/-- What a room writes for a JSON string unseats nobody, or a player is ejected. -/
theorem runningJson_unseats (raw : Option RoomMessage) :
    (∀ w ∈ (a.runningJson d sender answer raw).writes, w.unseats c = false) ∨
      ∃ player ∈ a.players, (a.runningJson d sender answer raw).lobby.players = a.players.erase player := by
  have nothing {raw' : String} : ∀ w ∈ [Write.mk sender (.text raw')], w.unseats c = false :=
    List.forall_mem_singleton.mpr rfl
  have told {players : List PlayerInfo2} {payload : TcpPayload} (h : ∀ flags, payload ≠ .json (.ejected flags)) :
      ∀ w ∈ players.map fun player => Write.mk player.actor payload, w.unseats c = false := by
    intro w hw
    obtain ⟨player, -, rfl⟩ := List.mem_map.mp hw
    unfold Write.unseats
    split
    · rename_i flags heq
      exact absurd heq (h flags)
    · rfl
  cases raw with
  | none => exact Or.inl nothing
  | some message =>
    cases message with
    | message senderName data toSelf => exact Or.inl (told nofun)
    | startSession data =>
      left
      simp only [runningJson, startSession]
      split
      · split
        · exact told nofun
        · exact nothing
      · exact nothing
    | ejectPlayer playerName =>
      simp only [runningJson, eject]
      split
      · split
        · split
          · rename_i player hfind
            refine Or.inr ⟨player, List.mem_of_find?_eq_some hfind, ?_⟩
            split <;> rfl
          · exact Or.inl (List.forall_mem_nil _)
        · exact Or.inl (List.forall_mem_nil _)
      · exact Or.inl nothing
    | reconfigure newLimit newReserved =>
      left
      simp only [runningJson, reconfigure]
      split
      · split
        · split
          · exact List.forall_mem_singleton.mpr rfl
          · split
            · exact told nofun
            · exact nothing
        · exact List.forall_mem_nil _
      · exact nothing
    | _ => exact Or.inl (List.forall_mem_nil _)

/-- The seats of `c` before and after a message: what it gets is what it has then, what it is told that it has lost, and
    what it has given up. -/
structure Balances (a : LobbyActor2) (sender c : Connection) (m : LobbyMessage) (o : LobbyOutcome) : Prop where
  eq : o.writes.countP (Write.seats c) + a.seatsOf c =
    (if o.lobby.stopped then 0 else o.lobby.seatsOf c) + o.writes.countP (Write.unseats c) +
      (a.departs sender m).count c

theorem countP_quiet {p : Write → Bool} {writes : List Write} (h : ∀ w ∈ writes, p w = false) : writes.countP p = 0 :=
  List.countP_eq_zero.mpr fun w hw => by rw [h w hw]; exact Bool.false_ne_true

/-- Nothing about `c` changes. -/
theorem balances_quiet {m : LobbyMessage} {o : LobbyOutcome} (hlive : o.lobby.stopped = false)
    (hplayers : o.lobby.players = a.players) (hseats : ∀ w ∈ o.writes, w.seats c = false)
    (hunseats : ∀ w ∈ o.writes, w.unseats c = false) (hstays : a.departs sender m = []) : Balances a sender c m o where
  eq := by
    rw [countP_quiet hseats, countP_quiet hunseats, hlive, hstays, seatsOf, seatsOf, hplayers]
    simp

theorem not_seats {w : Write} (h : w.payload.roomInfo = none) : w.seats c = false := by
  unfold Write.seats
  split
  · rename_i info heq
    rw [heq] at h
    cases h
  · rfl

variable (d sender c answer) in
/-- Whatever a running room does with a message. -/
theorem running_balances (hlive : a.stopped = false) (m : LobbyMessage) :
    Balances a sender c m (a.running d sender answer m) := by
  have hhandled : Handled a d sender m (a.running d sender answer m) := running_handled answer m
  generalize ho : a.running d sender answer m = o at hhandled
  cases hhandled with
  | again => exact balances_quiet hlive rfl (List.forall_mem_nil _) (List.forall_mem_nil _) rfl
  | refused =>
    exact balances_quiet hlive rfl (List.forall_mem_singleton.mpr rfl) (List.forall_mem_singleton.mpr rfl) rfl
  | @joined playerName b room admits next info =>
    subst next
    -- One seat more, and one description of the room.
    refine ⟨?_⟩
    simp only [hlive, seatsOf, departs, Write.seats, Write.unseats, List.countP_cons, List.countP_nil,
      List.countP_append, List.count_nil]
    simp
    omega
  | stranger absent =>
    have hnobody : a.players.any (·.actor = sender) = false := List.any_eq_false.mpr fun player hplayer => by
      simpa using absent player hplayer
    exact balances_quiet hlive rfl (List.forall_mem_nil _) (List.forall_mem_nil _) (if_neg (by rw [hnobody]; nofun))
  | @left player b room found next info =>
    subst next
    -- One seat less, given up by the one who leaves.
    have hmember := List.mem_of_find?_eq_some found
    have hown : player.actor = sender := by simpa using List.find?_some found
    have hany : a.players.any (·.actor = sender) = true :=
      List.any_eq_true.mpr ⟨player, hmember, decide_eq_true hown⟩
    refine ⟨?_⟩
    rw [departs, if_pos hany, seatsOf, seatsOf, countP_erase hmember, hown]
    simp [hlive, List.count_singleton]
  | @emptied player own last =>
    have hany : a.players.any (·.actor = sender) = true := by
      rw [last]
      simpa using own
    refine ⟨?_⟩
    rw [departs, if_pos hany, seatsOf, last]
    simp [List.count_singleton, own]
  | closed =>
    refine ⟨?_⟩
    simp only [shutdown, seatsOf, departs, List.countP_map, List.count_nil]
    -- Each seat goes with an `Ejected`; nobody is sent a description of the room.
    have hnone : List.countP (Write.seats c ∘ fun player => ejectPlayer player (flagEjected ||| flagClosedByHost))
        a.players = 0 := List.countP_eq_zero.mpr fun _ _ => Bool.false_ne_true
    rw [hnone]
    simp [Function.comp_def, Write.unseats, ejectPlayer]
  | nobody empty => exact balances_quiet hlive rfl (List.forall_mem_nil _) (List.forall_mem_nil _) rfl
  | told info =>
    refine balances_quiet hlive rfl (fun w hw => ?_) (fun w hw => ?_) rfl
    · obtain ⟨player, -, rfl⟩ := List.mem_map.mp hw
      rfl
    · obtain ⟨player, -, rfl⟩ := List.mem_map.mp hw
      rfl
  | @spoken raw writes stays plain =>
    refine balances_quiet hlive rfl (fun w hw => not_seats (plain w hw)) ?_ rfl
    rcases runningJson_unseats a d sender c answer (raw.map (·.extract)) with hquiet | ⟨player, hplayer, hplayers⟩
    · have hwrites : (a.runningJson d sender answer (raw.map (·.extract))).writes = writes :=
        congrArg LobbyOutcome.writes ho
      rw [← hwrites]
      exact hquiet
    -- The players have not changed, so this was no ejection.
    · have hlobby : (a.runningJson d sender answer (raw.map (·.extract))).lobby = a := congrArg LobbyOutcome.lobby ho
      rw [hlobby] at hplayers
      have hlength := List.length_erase_add_one hplayer
      rw [← hplayers] at hlength
      omega
  | forwarded => exact balances_quiet hlive rfl (List.forall_mem_nil _) (List.forall_mem_nil _) rfl
  | leaving => exact balances_quiet hlive rfl (List.forall_mem_nil _) (List.forall_mem_nil _) rfl
  | @ejected playerName host player b room head byHost other found next info =>
    subst next
    -- One seat less, and one `Ejected`.
    have hmember := List.mem_of_find?_eq_some found
    refine ⟨?_⟩
    rw [seatsOf, seatsOf, countP_erase hmember]
    simp [hlive, departs, Write.seats, Write.unseats, ejectPlayer]
  | reconfigured _ _ next info =>
    subst next
    refine balances_quiet hlive rfl (fun w hw => ?_) (fun w hw => ?_) rfl
    · obtain ⟨player, -, rfl⟩ := List.mem_map.mp hw
      rfl
    · obtain ⟨player, -, rfl⟩ := List.mem_map.mp hw
      rfl

/-- A new room that does not open, or a zombie, seats nobody. -/
theorem closed_quiet (hnot : a.behaviour ≠ .running) (m : LobbyMessage)
    (hafter : (a.receive d sender self answer m).lobby.behaviour ≠ .running) :
    (∀ w ∈ (a.receive d sender self answer m).writes, w.seats c = false) ∧
      ∀ w ∈ (a.receive d sender self answer m).writes, w.unseats c = false := by
  have nothing : (∀ w ∈ ([] : List Write), w.seats c = false) ∧ ∀ w ∈ ([] : List Write), w.unseats c = false :=
    ⟨List.forall_mem_nil _, List.forall_mem_nil _⟩
  have refused {raw : String} : (∀ w ∈ [Write.mk sender (.text raw)], w.seats c = false) ∧
      ∀ w ∈ [Write.mk sender (.text raw)], w.unseats c = false :=
    ⟨List.forall_mem_singleton.mpr rfl, List.forall_mem_singleton.mpr rfl⟩
  unfold receive at hafter ⊢
  cases hbehaviour : a.behaviour with
  | initial =>
    rw [hbehaviour] at hafter
    cases m with
    | init hostName roomName description playersLimit playersReserved userParam =>
      dsimp only at hafter ⊢
      unfold init at hafter ⊢
      dsimp only at hafter ⊢
      split
      · rename_i room hroom
        rw [hroom] at hafter
        dsimp only at hafter
        split
        · rename_i d' hregister
          rw [hregister] at hafter
          exact absurd rfl hafter
        · exact refused
        · exact refused
      · exact nothing
    | _ => exact nothing
  | running => exact absurd hbehaviour hnot
  | zombie => cases m <;> exact nothing

end LobbyActor2

namespace Server

/-- A room that has not begun has no players, and the names in an open one are distinct. -/
structure Manned (σ : Server) : Prop where
  initial : ∀ l, (σ.rooms l).actor.behaviour = .initial → (σ.rooms l).actor.players = []
  names : ∀ l, (σ.rooms l).Open → ((σ.rooms l).actor.players.map (·.name)).Nodup

variable {σ : Server} {c : Connection} {o : ClientOutcome} {l : LobbyRef} {answer : Option Int}

theorem Manned.start (ipBackend : String) (portBackend : Int) : Manned (start ipBackend portBackend) where
  initial _ _ := rfl
  names _ _ := List.nodup_nil

theorem Manned.turn (h : Manned σ) : Manned (σ.turn c o) where
  initial l := by
    rw [turn_actor]
    exact h.initial l
  names l hopen := by
    rw [turn_actor]
    exact h.names l (turn_open.mp hopen)

/-- What the actor of a room is after a message. -/
theorem Manned.receive (h : Manned σ) (hregistry : Registry σ) {mail : Mail} {rest : List Mail}
    (hmailbox : (σ.rooms l).mailbox = mail :: rest) (answer : Option Int) :
    let a := ((σ.rooms l).actor.receive σ.depot mail.sender l answer mail.message).lobby
    (a.behaviour = .initial → a.players = []) ∧
      (a.behaviour = .running → (a.players.map (·.name)).Nodup) := by
  have hlive := hregistry.live hmailbox
  rcases LobbyActor2.receive_cases (σ.rooms l).actor σ.depot mail.sender l answer mail.message with
    ⟨hrunning, hhandled⟩ | ⟨hinitial, -, hopened⟩ | ⟨hnot, -, -, ⟨hinitial, hlobby⟩ | hzombie⟩
  · have hnames := h.names l ⟨hrunning, hlive⟩
    refine ⟨fun hinitial => (nomatch hinitial.symm.trans (hhandled.behaviour.trans hrunning)), fun _ => ?_⟩
    rcases hhandled.players with hplayers | ⟨playerName, -, ⟨-, hfresh⟩, hplayers⟩ | ⟨player, -, hplayers⟩
    · rwa [hplayers]
    · rw [hplayers]
      exact Watched.nodup_map_newcomer hnames hfresh
    · rw [hplayers]
      exact hnames.sublist (List.erase_sublist.map _)
  · refine ⟨fun hinitial' => (nomatch hinitial'.symm.trans hopened.running), fun _ => ?_⟩
    obtain ⟨name, hplayers⟩ := hopened.players
    rw [hplayers, h.initial l hinitial, List.nil_append]
    exact List.nodup_singleton _
  · dsimp only
    rw [hlobby]
    exact ⟨h.initial l, fun hrunning => absurd hrunning hnot⟩
  · exact ⟨fun hinitial => (nomatch hinitial.symm.trans hzombie), fun hrunning => nomatch hrunning.symm.trans hzombie⟩

theorem Manned.handle (h : Manned σ) (hregistry : Registry σ) : Manned (σ.handle l answer) := by
  cases hmailbox : (σ.rooms l).mailbox with
  | nil =>
    rw [handle_idle hmailbox]
    exact h
  | cons mail rest =>
    obtain ⟨hinitial, hnames⟩ := h.receive hregistry hmailbox answer
    have hroom := handle_room hmailbox answer
    refine ⟨forall_handle (P := fun _ r => r.actor.behaviour = .initial → r.actor.players = []) ?_
        fun l' _ => h.initial l',
      forall_handle (P := fun _ r => r.Open → (r.actor.players.map (·.name)).Nodup) ?_ fun l' _ => h.names l'⟩
    · rw [hroom]
      exact hinitial
    · rw [hroom]
      exact fun hopen => hnames hopen.1

/-! ### The accounts -/

/-- All seats of `c`. -/
def seatsOf (σ : Server) (c : Connection) : Nat := ∑ l ∈ Finset.range σ.created, (σ.rooms l).actor.openSeats c

/-- Who gives up a seat in a step. -/
def departs (σ : Server) : ServerAction → List Connection
  | .handle l _ =>
    match (σ.rooms l).mailbox with
    | mail :: _ => if (σ.rooms l).Open then (σ.rooms l).actor.departs mail.sender mail.message else []
    | [] => []
  | _ => []

/-- The seats of `c` in the room whose actor handles a message. -/
theorem room_balances (answer : Option Int) (hregistry : Registry σ) (hmanned : Manned σ) {mail : Mail}
    {rest : List Mail} (hmailbox : (σ.rooms l).mailbox = mail :: rest) :
    let o := (σ.rooms l).actor.receive σ.depot mail.sender l answer mail.message
    o.writes.countP (Write.seats c) + (σ.rooms l).actor.openSeats c =
      o.lobby.openSeats c + o.writes.countP (Write.unseats c) + (σ.departs (.handle l answer)).count c := by
  have hlive := hregistry.live hmailbox
  have hdeparts : σ.departs (.handle l answer) =
      if (σ.rooms l).Open then (σ.rooms l).actor.departs mail.sender mail.message else [] := by
    simp only [departs, hmailbox]
  dsimp only
  rw [hdeparts]
  -- A running room keeps the books; one that opens has the seat of its creator; in the others nothing is counted.
  rcases LobbyActor2.receive_cases (σ.rooms l).actor σ.depot mail.sender l answer mail.message with
    ⟨hrunning, hhandled⟩ | ⟨hinitial, -, hopened⟩ | ⟨hnot, -, -, hlobby⟩
  · have hopen : (σ.rooms l).Open := ⟨hrunning, hlive⟩
    have hreceive : (σ.rooms l).actor.receive σ.depot mail.sender l answer mail.message =
        (σ.rooms l).actor.running σ.depot mail.sender answer mail.message := by
      simp only [LobbyActor2.receive, hrunning]
    have hbehaviour := hhandled.behaviour.trans hrunning
    rw [hreceive] at hbehaviour ⊢
    have hbalances := (LobbyActor2.running_balances σ.depot mail.sender c answer hlive mail.message).eq
    rw [LobbyActor2.openSeats_of_open hrunning hlive, if_pos hopen, hbalances,
      LobbyActor2.openSeats_of_running hbehaviour]
  · have hnot : (σ.rooms l).actor.behaviour ≠ .running := by
      rw [hinitial]
      decide
    have hclosed : ¬(σ.rooms l).Open := fun hopen => hnot hopen.1
    obtain ⟨name, hplayers⟩ := hopened.players
    obtain ⟨room, -, hwrites, -, -⟩ := hopened.depot
    rw [hmanned.initial l hinitial, List.nil_append] at hplayers
    rw [LobbyActor2.openSeats_of_closed hnot, if_neg hclosed,
      LobbyActor2.openSeats_of_open hopened.running (hopened.stopped.trans hlive), LobbyActor2.seatsOf, hplayers,
      hwrites]
    simp [Write.seats, Write.unseats]
  · have hclosed : ¬(σ.rooms l).Open := fun hopen => hnot hopen.1
    have hafter : ((σ.rooms l).actor.receive σ.depot mail.sender l answer mail.message).lobby.behaviour ≠ .running := by
      rcases hlobby with ⟨-, hlobby⟩ | hzombie
      · rw [hlobby]
        exact hnot
      · rw [hzombie]
        decide
    obtain ⟨hseats, hunseats⟩ := LobbyActor2.closed_quiet (c := c) hnot mail.message hafter
    rw [LobbyActor2.openSeats_of_closed hnot, if_neg hclosed, LobbyActor2.openSeats_of_closed hafter,
      LobbyActor2.countP_quiet hseats, LobbyActor2.countP_quiet hunseats]
    rfl

/-- What a client writes by itself are plain answers. -/
theorem client_writes {client : Client} {d : Depot} {created : LobbyRef} (raw : Option FrontendMessage) :
    ∀ payload ∈ (client.receive d created raw).writes, ∃ raw, payload = .text raw := by
  cases hstopped : client.stopped with
  | true =>
    rw [Client.receive_of_stopped hstopped]
    exact List.forall_mem_nil _
  | false =>
    have hhandled := Client.receive_handled d created hstopped raw
    generalize client.receive d created raw = o at hhandled
    cases hhandled with
    | missing => exact List.forall_mem_singleton.mpr ⟨_, rfl⟩
    | unreadable => exact List.forall_mem_singleton.mpr ⟨_, rfl⟩
    | _ => exact List.forall_mem_nil _

theorem shutdown_writes {client : Client} {created : LobbyRef} : (client.shutdown created).writes = [] := by
  unfold Client.shutdown
  split <;> rfl

/-- The seats of `c` so far: those that it has been given are those that it has, those that it has been told it lost,
    and those that it gave up, by the list `departed`. -/
def Settled (departed : List Connection) (σ : Server) : Prop :=
  ∀ c, σ.sent.countP (Write.seats c) = σ.seatsOf c + σ.sent.countP (Write.unseats c) + departed.count c

theorem Settled.turn {departed : List Connection} (h : Settled departed σ) (hlives : Lives σ) (hforwards : Forwards σ o)
    (hwrites : ∀ payload ∈ o.writes, ∃ raw, payload = .text raw) : Settled departed (σ.turn c o) := by
  intro c'
  have hplain {p : Write → Bool} (hp : ∀ raw, p ⟨c, .text raw⟩ = false) :
      (σ.turn c o).sent.countP p = σ.sent.countP p := by
    have hnothing : (o.writes.map fun payload => (⟨c, payload⟩ : Write)).countP p = 0 := by
      refine LobbyActor2.countP_quiet fun w hw => ?_
      obtain ⟨payload, hpayload, rfl⟩ := List.mem_map.mp hw
      obtain ⟨raw, rfl⟩ := hwrites payload hpayload
      exact hp raw
    simp only [Server.turn, List.countP_append, hnothing, Nat.add_zero]
  have hseats : (σ.turn c o).seatsOf c' = σ.seatsOf c' := by
    have hrooms : (σ.turn c o).seatsOf c' = ∑ l ∈ Finset.range o.created, (σ.rooms l).actor.openSeats c' :=
      Finset.sum_congr rfl fun l _ => congrArg (LobbyActor2.openSeats · c') turn_actor
    rw [hrooms]
    rcases hforwards with ⟨hcreated, -⟩ | ⟨hcreated, -⟩
    · rw [hcreated, Finset.sum_range_succ, hlives.fresh _ (Nat.le_refl _)]
      exact Nat.add_zero _
    · rw [hcreated]
      rfl
  rw [hplain fun _ => rfl, hplain fun _ => rfl, hseats]
  exact h c'

theorem Settled.handle {departed : List Connection} (h : Settled departed σ) (hlives : Lives σ)
    (hregistry : Registry σ) (hmanned : Manned σ) :
    Settled (departed ++ σ.departs (.handle l answer)) (σ.handle l answer) := by
  intro c
  cases hmailbox : (σ.rooms l).mailbox with
  | nil =>
    have hdeparts : σ.departs (.handle l answer) = [] := by simp only [departs, hmailbox]
    rw [handle_idle hmailbox, hdeparts, List.append_nil]
    exact h c
  | cons mail rest =>
    have hl : l < σ.created := by
      by_contra hnot
      rw [hlives.fresh l (Nat.le_of_not_lt hnot)] at hmailbox
      cases hmailbox
    have hbalances := room_balances (c := c) answer hregistry hmanned hmailbox
    have hactor : ((σ.handle l answer).rooms l).actor =
        ((σ.rooms l).actor.receive σ.depot mail.sender l answer mail.message).lobby := by rw [handle_room hmailbox]
    dsimp only at hbalances
    rw [← hactor] at hbalances
    have hsum := sum_of_one (f := fun l' => (σ.rooms l').actor.openSeats c)
      (g := fun l' => ((σ.handle l answer).rooms l').actor.openSeats c) hl
      fun l' hl' => congrArg (fun r : Room => r.actor.openSeats c) (handle_other hl')
    have hbefore := h c
    have hcreated : (σ.handle l answer).created = σ.created := rfl
    rw [handle_sent hmailbox, List.countP_append, List.countP_append, List.count_append]
    unfold seatsOf at hbefore ⊢
    rw [hcreated]
    omega

theorem Settled.step {departed : List Connection} (h : Settled departed σ) (hlives : Lives σ) (hregistry : Registry σ)
    (hmanned : Manned σ) (action : ServerAction) : Settled (departed ++ σ.departs action) (σ.step action) := by
  cases action with
  | received c raw =>
    have hnobody : σ.departs (.received c raw) = [] := rfl
    rw [hnobody, List.append_nil]
    exact h.turn hlives (hlives.forwards hregistry raw).1 (client_writes raw)
  | closed c =>
    have hnobody : σ.departs (.closed c) = [] := rfl
    rw [hnobody, List.append_nil]
    refine h.turn hlives hlives.forwards_shutdown.1 ?_
    rw [shutdown_writes]
    exact List.forall_mem_nil _
  | handle l answer => exact h.handle hlives hregistry hmanned

theorem Manned.step (h : Manned σ) (hregistry : Registry σ) (action : ServerAction) : Manned (σ.step action) := by
  cases action with
  | received c raw => exact h.turn
  | closed c => exact h.turn
  | handle l answer => exact h.handle hregistry

/-- The seats of every connection balance in every run: the room descriptions that have answered its requests are as
    many as the seats that it has now in all rooms, the `Ejected`s that it was sent, and the seats that it gave up. -/
theorem seats_balance (ipBackend : String) (portBackend : Int) (as : List ServerAction) (c : Connection) :
    let σ := Machine.run step (start ipBackend portBackend) as
    σ.sent.countP (Write.seats c) = σ.seatsOf c + σ.sent.countP (Write.unseats c) +
      (Machine.outputs step departs (start ipBackend portBackend) as).count c := by
  have hall : Registry (Machine.run step (start ipBackend portBackend) as) ∧
      Lives (Machine.run step (start ipBackend portBackend) as) ∧
      Manned (Machine.run step (start ipBackend portBackend) as) ∧
      Settled (Machine.outputs step departs (start ipBackend portBackend) as)
        (Machine.run step (start ipBackend portBackend) as) := by
    induction as using List.reverseRecOn with
    | nil =>
      refine ⟨.start ipBackend portBackend, .start ipBackend portBackend, .start ipBackend portBackend, fun c => ?_⟩
      rfl
    | append_singleton as a ih =>
      obtain ⟨hregistry, hlives, hmanned, hsettled⟩ := ih
      rw [Machine.run_append, Machine.outputs_append]
      refine ⟨hregistry.step a, hlives.step hregistry a, hmanned.step hregistry a, ?_⟩
      simp only [Machine.outputs, List.append_nil]
      exact hsettled.step hlives hregistry hmanned a
  exact hall.2.2.2 c

end Server

end MultiSlider
