import Mathlib.Data.List.Nodup
import MultiSlider.Lobby.Server

/-! What the players of a room are told about it. A change is announced by an `Update` that the actor sends
    itself; until it is handled the others' view of the room is out of date, but the announcement is in the
    mailbox, and it is not one that leaves them out. -/

namespace MultiSlider

/-- The last room description written on a connection. -/
def lastDescription (sent : List Write) (c : Connection) : Option RoomInfo :=
  ((sent.filter (·.receiver = c)).filterMap (·.payload.roomInfo)).getLast?

/-- The message will have the room described on the connection, if a player is there. -/
def Mail.Tells (mail : Mail) (c : Connection) : Prop :=
  match mail.message with
  | .update _ _ _ toSelf _ => toSelf = true ∨ mail.sender ≠ c
  | _ => False

theorem Mail.Tells.isUpdate {mail : Mail} {c : Connection} (h : mail.Tells c) : mail.message.isUpdate = true := by
  unfold Mail.Tells at h
  split at h
  · rename_i hmessage
    rw [hmessage]
    rfl
  · exact h.elim

/-- A room, and all that it has written. -/
structure Watched where
  room : Room
  sent : List Write

/-- A message comes in, or the actor handles one, at some state of the registry. -/
inductive RoomAction where
  | post (mail : Mail)
  | handle (d : Depot) (answer : Option Int)

namespace Watched

/-- A new room, which has written nothing. -/
def start : Watched := ⟨.create, []⟩

/-- One action on the room whose actor is `self`. -/
def step (self : LobbyRef) (v : Watched) : RoomAction → Watched
  | .post mail => { v with room := v.room.post mail }
  | .handle d answer =>
    let r := v.room.handle d self answer
    ⟨r.1, v.sent ++ r.2.2⟩

/-- No connection joins the room while it is in it. -/
def NoRejoin (v : Watched) : RoomAction → Prop
  | .post _ => True
  | .handle _ _ => match v.room.mailbox with
    | ⟨sender, .join playerName⟩ :: _ => v.room.actor.Admits playerName →
      ∀ player ∈ v.room.actor.players, player.actor ≠ sender
    | _ => True

/-- If no announcement is pending, the last room description written on each player's connection is that of
    the room as it is. -/
def Converged (v : Watched) : Prop :=
  v.room.Open → (∀ mail ∈ v.room.mailbox, mail.message.isUpdate = false) →
    ∀ player ∈ v.room.actor.players, lastDescription v.sent player.actor = v.room.actor.makeRoomInfo

/-- A new room has no players; the players of an open one have connections of their own, and each has a
    current view of the room or will be told. -/
structure Views (v : Watched) : Prop where
  initial : v.room.actor.behaviour = .initial → v.room.actor.players = []
  distinct : v.room.Open → (v.room.actor.players.map (·.actor)).Nodup
  fresh : v.room.Open → ∀ player ∈ v.room.actor.players,
    lastDescription v.sent player.actor = v.room.actor.makeRoomInfo ∨ ∃ mail ∈ v.room.mailbox, mail.Tells player.actor

instance (v : Watched) (action : RoomAction) : Decidable (NoRejoin v action) := by
  unfold NoRejoin
  split
  · infer_instance
  · split <;> infer_instance

variable {v : Watched} {self : LobbyRef}

/-! ### The last description -/

theorem lastDescription_append {sent writes : List Write} {c : Connection} :
    lastDescription (sent ++ writes) c = (lastDescription writes c).or (lastDescription sent c) := by
  simp [lastDescription, List.getLast?_append]

/-- Nothing is described on the connection. -/
theorem lastDescription_append_of_none {sent writes : List Write} {c : Connection}
    (h : ∀ w ∈ writes, w.receiver = c → w.payload.roomInfo = none) :
    lastDescription (sent ++ writes) c = lastDescription sent c := by
  have hnone : lastDescription writes c = none := by
    unfold lastDescription
    rw [List.getLast?_eq_none_iff, List.filterMap_eq_nil_iff]
    intro w hw
    obtain ⟨hmem, hc⟩ := List.mem_filter.mp hw
    exact h w hmem (of_decide_eq_true hc)
  rw [lastDescription_append, hnone, Option.none_or]

/-- The room is described on the connection, and nothing else is. -/
theorem lastDescription_append_of_some {sent writes : List Write} {c : Connection} {room : RoomInfo}
    (h : ∀ w ∈ writes, w.receiver = c → w.payload.roomInfo = some room) (hsome : ∃ w ∈ writes, w.receiver = c) :
    lastDescription (sent ++ writes) c = some room := by
  have hlast : lastDescription writes c = some room := by
    unfold lastDescription
    cases hdescriptions : ((writes.filter (·.receiver = c)).filterMap (·.payload.roomInfo)).getLast? with
    | none =>
      obtain ⟨w, hw, hc⟩ := hsome
      rw [List.getLast?_eq_none_iff, List.filterMap_eq_nil_iff] at hdescriptions
      have hnone := hdescriptions w (List.mem_filter.mpr ⟨hw, decide_eq_true hc⟩)
      cases (h w hw hc).symm.trans hnone
    | some info =>
      obtain ⟨w, hw, hinfo⟩ := List.mem_filterMap.mp (List.mem_of_getLast? hdescriptions)
      obtain ⟨hmem, hc⟩ := List.mem_filter.mp hw
      exact hinfo.symm.trans (h w hmem (of_decide_eq_true hc))
  rw [lastDescription_append, hlast, Option.some_or]

/-! ### One message -/

theorem Views.post (h : Views v) (mail : Mail) : Views { v with room := v.room.post mail } := by
  unfold Room.post
  split
  · exact h
  · refine ⟨h.initial, h.distinct, fun hopen player hplayer => ?_⟩
    rcases h.fresh hopen player hplayer with hlast | ⟨mail', hmail', htells⟩
    · exact Or.inl hlast
    · exact Or.inr ⟨mail', List.mem_append_left _ hmail', htells⟩

/-- A message that announces nothing, changes nothing and describes nothing. -/
theorem Views.keep (h : Views v) {mail : Mail} {rest mailbox : List Mail} {writes : List Write}
    (hmailbox : v.room.mailbox = mail :: rest) (hno : mail.message.isUpdate = false) (hsub : rest ⊆ mailbox)
    (hplain : ∀ w ∈ writes, w.payload.roomInfo = none) :
    Views ⟨⟨v.room.actor, mailbox⟩, v.sent ++ writes⟩ := by
  refine ⟨h.initial, h.distinct, fun hopen player hplayer => ?_⟩
  rcases h.fresh hopen player hplayer with hlast | ⟨mail', hmail', htells⟩
  · exact Or.inl ((lastDescription_append_of_none fun w hw _ => hplain w hw).trans hlast)
  · rw [hmailbox] at hmail'
    rcases List.mem_cons.mp hmail' with rfl | hmail'
    · cases htells.isUpdate.symm.trans hno
    · exact Or.inr ⟨mail', hsub hmail', htells⟩

/-- A room whose actor is not open. -/
theorem views_of_not_open (hopen : ¬v.room.Open)
    (hinitial : v.room.actor.behaviour = .initial → v.room.actor.players = []) : Views v :=
  ⟨hinitial, fun h => absurd h hopen, fun h => absurd h hopen⟩

/-- After an announcement, each player is told whom it is meant for, and the others are as before. -/
theorem Views.told (h : Views v) {sender : Connection} {rest : List Mail} {old room : RoomInfo}
    {data senderName : String} {toSelf : Bool} {flags : Int}
    (hmailbox : v.room.mailbox = ⟨sender, .update old data senderName toSelf flags⟩ :: rest)
    (hroom : v.room.actor.makeRoomInfo = some room) :
    Views ⟨⟨v.room.actor, rest⟩,
      v.sent ++ (v.room.actor.players.filter fun player => toSelf || player.actor ≠ sender).map fun player =>
        ⟨player.actor, .json (.update room data senderName toSelf flags)⟩⟩ := by
  refine ⟨h.initial, h.distinct, fun hopen player hplayer => ?_⟩
  by_cases hmeant : toSelf = true ∨ player.actor ≠ sender
  · refine Or.inl ((lastDescription_append_of_some (fun w hw _ => ?_) ?_).trans hroom.symm)
    · obtain ⟨player', -, rfl⟩ := List.mem_map.mp hw
      rfl
    · exact ⟨_, List.mem_map.mpr ⟨player, List.mem_filter.mpr ⟨hplayer, by simpa using hmeant⟩, rfl⟩, rfl⟩
  · rw [not_or, not_not] at hmeant
    obtain ⟨hself, hsender⟩ := hmeant
    rcases h.fresh hopen player hplayer with hlast | ⟨mail, hmail, htells⟩
    · refine Or.inl ((lastDescription_append_of_none fun w hw hc => ?_).trans hlast)
      obtain ⟨player', hplayer', rfl⟩ := List.mem_map.mp hw
      have hother := (List.mem_filter.mp hplayer').2
      simp only [hself, Bool.false_or, decide_eq_true_eq] at hother
      exact absurd (hc.trans hsender) hother
    · rw [hmailbox] at hmail
      rcases List.mem_cons.mp hmail with rfl | hmail
      · exact absurd htells (by simp [Mail.Tells, hself, hsender])
      · exact Or.inr ⟨mail, hmail, htells⟩

/-- After a change that is announced, everybody but the newcomer will be told. -/
theorem Views.changed {actor : LobbyActor2} {mailbox : List Mail} {sent : List Write} {mail : Mail}
    (hrunning : actor.behaviour = .running) (hdistinct : (actor.players.map (·.actor)).Nodup) (hmail : mail ∈ mailbox)
    (htold : ∀ player ∈ actor.players,
      lastDescription sent player.actor = actor.makeRoomInfo ∨ mail.Tells player.actor) :
    Views ⟨⟨actor, mailbox⟩, sent⟩ where
  initial hinitial := by cases hrunning.symm.trans hinitial
  distinct _ := hdistinct
  fresh _ player hplayer := (htold player hplayer).imp_right fun htells => ⟨mail, hmail, htells⟩

/-- The other players have other connections. -/
theorem actor_ne_of_mem_erase {players : List PlayerInfo2} (h : (players.map (·.actor)).Nodup)
    {player other : PlayerInfo2} (hplayer : player ∈ players) (hother : other ∈ players.erase player) :
    other.actor ≠ player.actor := by
  obtain ⟨hne, hmem⟩ := (List.Nodup.mem_erase_iff (List.Nodup.of_map _ h)).mp hother
  exact fun heq => hne (List.inj_on_of_nodup_map h hmem hplayer heq)

/-- A newcomer with a key of its own. -/
theorem nodup_map_newcomer {β : Type} {key : PlayerInfo2 → β} {players : List PlayerInfo2} {player : PlayerInfo2}
    (h : (players.map key).Nodup) (hnew : ∀ other ∈ players, key other ≠ key player) :
    ((players ++ [player]).map key).Nodup := by
  rw [← List.concat_eq_append, List.map_concat, List.nodup_concat]
  refine ⟨fun hmem => ?_, h⟩
  obtain ⟨other, hother, heq⟩ := List.mem_map.mp hmem
  exact hnew other hother heq

theorem Views.running (h : Views v) (hopen : v.room.Open) {d : Depot} {sender : Connection} {message : LobbyMessage}
    {rest : List Mail} {o : LobbyOutcome} (hmailbox : v.room.mailbox = ⟨sender, message⟩ :: rest)
    (hhandled : v.room.actor.Handled d sender message o)
    (hjoin : ∀ playerName, message = .join playerName → v.room.actor.Admits playerName →
      ∀ player ∈ v.room.actor.players, player.actor ≠ sender) :
    Views ⟨⟨o.lobby, if o.lobby.stopped then [] else rest ++ o.forwards.map fun message => ⟨sender, message⟩⟩,
      v.sent ++ o.writes⟩ := by
  have hdistinct := h.distinct hopen
  have hstopped (b : LobbyActor2) (hb : b.stopped = v.room.actor.stopped) (mailbox : List Mail) :
      (if b.stopped then [] else mailbox) = mailbox := by
    rw [hb, hopen.2]
    rfl
  -- A message that is no `Update` and describes no room leaves what all have been shown.
  have hkeep {writes : List Write} (forwards : List LobbyMessage) (hno : message.isUpdate = false)
      (hplain : ∀ w ∈ writes, w.payload.roomInfo = none) :
      Views ⟨⟨v.room.actor, if v.room.actor.stopped then [] else rest ++ forwards.map fun message => ⟨sender, message⟩⟩,
        v.sent ++ writes⟩ := by
    rw [hstopped _ rfl]
    exact h.keep hmailbox hno (List.subset_append_left _ _) hplain
  cases hhandled with
  | again => exact hkeep [] rfl (List.forall_mem_nil _)
  | refused => exact hkeep [] rfl LobbyActor2.plain_of_text
  | stranger => exact hkeep [] rfl (List.forall_mem_nil _)
  | spoken stays plain => exact hkeep [] rfl plain
  | forwarded => exact hkeep _ rfl (List.forall_mem_nil _)
  | leaving => exact hkeep _ rfl (List.forall_mem_nil _)
  | nobody empty =>
    refine ⟨h.initial, h.distinct, fun _ player hplayer => ?_⟩
    dsimp only at hplayer
    rw [empty] at hplayer
    cases hplayer
  | told info =>
    rw [hstopped _ rfl]
    simpa using h.told hmailbox info
  | emptied own last => exact views_of_not_open (fun hopen' => nomatch hopen'.2) fun _ => rfl
  | closed => exact views_of_not_open (fun hopen' => nomatch hopen'.2) h.initial
  | @joined playerName b room admits next info =>
    have hothers := hjoin _ rfl admits
    subst next
    rw [hstopped _ rfl]
    refine .changed hopen.1 (nodup_map_newcomer hdistinct hothers)
      (List.mem_append_right _ (List.mem_singleton_self _)) fun player hplayer => ?_
    rcases List.mem_append.mp hplayer with hplayer | hplayer
    · exact Or.inr (Or.inr (hothers player hplayer).symm)
    · -- The newcomer is sent the room at once.
      rw [List.mem_singleton.mp hplayer]
      refine Or.inl ((lastDescription_append_of_some (fun w hw _ => ?_)
        ⟨_, List.mem_singleton_self _, rfl⟩).trans info.symm)
      rw [List.mem_singleton.mp hw]
      rfl
  | @left player b room found next info =>
    have hmember := List.mem_of_find?_eq_some found
    have hown : player.actor = sender := by simpa using List.find?_some found
    subst next
    rw [hstopped _ rfl]
    refine .changed hopen.1 (hdistinct.sublist (List.erase_sublist.map _))
      (List.mem_append_right _ (List.mem_singleton_self _)) fun other hother => ?_
    -- The others will be told by the `Update` that the actor has sent to itself.
    exact Or.inr (Or.inr (hown ▸ (actor_ne_of_mem_erase hdistinct hmember hother).symm))
  | @ejected playerName host player b room head byHost other found next info =>
    subst next
    rw [hstopped _ rfl]
    exact .changed hopen.1 (hdistinct.sublist (List.erase_sublist.map _))
      (List.mem_append_right _ (List.mem_singleton_self _)) fun _ _ => Or.inr (Or.inl rfl)
  | @reconfigured newLimit newReserved host b room head byHost next info =>
    subst next
    rw [hstopped _ rfl]
    refine ⟨fun hinitial => (nomatch hopen.1.symm.trans hinitial), fun _ => hdistinct,
      fun _ player hplayer => Or.inl ?_⟩
    -- All players are sent the new description.
    refine (lastDescription_append_of_some (fun w hw _ => ?_) ?_).trans info.symm
    · obtain ⟨player', -, rfl⟩ := List.mem_map.mp hw
      rfl
    · exact ⟨_, List.mem_map.mpr ⟨player, hplayer, rfl⟩, rfl⟩

theorem Views.handle (h : Views v) {d : Depot} {answer : Option Int} (hjoin : NoRejoin v (.handle d answer)) :
    Views (v.step self (.handle d answer)) := by
  simp only [step, Room.handle]
  cases hmailbox : v.room.mailbox with
  | nil => simpa [hmailbox] using h
  | cons mail rest =>
    obtain ⟨sender, message⟩ := mail
    have hjoin' : ∀ playerName, message = .join playerName → v.room.actor.Admits playerName →
        ∀ player ∈ v.room.actor.players, player.actor ≠ sender := by
      rintro playerName rfl
      simpa only [NoRejoin, hmailbox] using hjoin
    dsimp only
    rcases LobbyActor2.receive_cases v.room.actor d sender self answer message with
      ⟨hrunning, hhandled⟩ | ⟨hinitial, -, hopened⟩ | ⟨hnot, -, -, hlobby⟩
    · cases hstopped : v.room.actor.stopped with
      | true =>
        refine views_of_not_open (fun hopen => ?_) fun hinitial => ?_
        · cases (hhandled.stopped hstopped).symm.trans hopen.2
        · cases hrunning.symm.trans (hhandled.behaviour.symm.trans hinitial)
      | false => exact h.running ⟨hrunning, hstopped⟩ hmailbox hhandled hjoin'
    · obtain ⟨name, hplayers⟩ := hopened.players
      obtain ⟨room, hroom, hwrites, -⟩ := hopened.depot
      -- The creator is alone in the room, and has just been sent its description.
      rw [h.initial hinitial, List.nil_append] at hplayers
      refine ⟨fun h => (nomatch hopened.running.symm.trans h), fun _ => ?_, fun _ player hplayer => Or.inl ?_⟩
      · rw [hplayers]
        exact List.nodup_singleton _
      · rw [hplayers] at hplayer
        rw [List.mem_singleton.mp hplayer, hwrites]
        refine (lastDescription_append_of_some (fun w hw _ => ?_) ⟨_, List.mem_singleton_self _, rfl⟩).trans hroom.symm
        rw [List.mem_singleton.mp hw]
        rfl
    · refine views_of_not_open (fun hopen => ?_) fun hinitial => ?_
      -- A room that is not open stays so.
      · rcases hlobby with ⟨-, hlobby⟩ | hzombie
        · exact hnot (hlobby ▸ hopen.1)
        · cases hzombie.symm.trans hopen.1
      · rcases hlobby with ⟨-, hlobby⟩ | hzombie
        · dsimp only at hinitial ⊢
          rw [hlobby] at hinitial ⊢
          exact h.initial hinitial
        · cases hzombie.symm.trans hinitial

/-- In every run of a room in which no connection joins while it is in the room: whenever no announcement is
    pending, each player has last been sent the room as it is. -/
theorem views_converge (self : LobbyRef) (as : List RoomAction) (h : Machine.Along (step self) NoRejoin start as) :
    Machine.Always (step self) Converged start as := by
  have hviews : Machine.Always (step self) Views start as := by
    refine Machine.always_of_along (fun v action hv hjoin => ?_) ?_ h
    · cases action with
      | post mail => exact hv.post mail
      | handle d answer => exact hv.handle hjoin
    · exact views_of_not_open (fun hopen => nomatch hopen.1) fun _ => rfl
  refine hviews.imp fun v hv hopen hdrained player hplayer => ?_
  rcases hv.fresh hopen player hplayer with hlast | ⟨mail, hmail, htells⟩
  · exact hlast
  · cases htells.isUpdate.symm.trans (hdrained mail hmail)

/-- A player joins and the host hears of it. -/
theorem views_converge_join :
    let d := Depot.create "localhost" 8700
    let as : List RoomAction := [.post ⟨0, .init "a" "R" "" 2 0 ""⟩, .handle d none, .post ⟨1, .join "b"⟩,
      .handle d none, .handle d none]
    Converged (Machine.run (step 0) start as) ∧ (Machine.run (step 0) start as).room.mailbox = [] ∧
      (Machine.run (step 0) start as).room.actor.players = [⟨0, "a", false⟩, ⟨1, "b", false⟩] := by
  intro d as
  exact ⟨Machine.always_iff_prefix.mp (views_converge 0 as (by decide +kernel)) as (List.prefix_refl as),
    by decide +kernel, by decide +kernel⟩

/-! ### The rooms of a server -/

/-- What an action of the server is for one room. -/
theorem room_step {l : LobbyRef} (σ : Server) (action : ServerAction) : (σ.step action).rooms l = σ.rooms l ∨
    ∃ b : RoomAction, ∀ v : Watched, v.room = σ.rooms l → (v.step l b).room = (σ.step action).rooms l := by
  have hturn (c : Connection) (o : ClientOutcome) : (σ.turn c o).rooms l = σ.rooms l ∨
      ∃ b : RoomAction, ∀ v : Watched, v.room = σ.rooms l → (v.step l b).room = (σ.turn c o).rooms l := by
    rcases Server.turn_room (σ := σ) (c := c) (o := o) (l := l) with hroom | ⟨message, -, hroom⟩
    · exact Or.inl hroom
    · refine Or.inr ⟨.post ⟨c, message⟩, fun v hv => ?_⟩
      rw [hroom, ← hv]
      rfl
  cases action with
  | received c raw => exact hturn c _
  | closed c => exact hturn c _
  | handle l' answer =>
    by_cases hl : l = l'
    · subst hl
      refine Or.inr ⟨.handle σ.depot answer, fun v hv => ?_⟩
      have hroom : (σ.handle l answer).rooms l = ((σ.rooms l).handle σ.depot l answer).1 := Function.update_self l _ _
      simp only [Server.step, hroom, ← hv]
      rfl
    · exact Or.inl (Server.handle_other hl)

/-- In every run of the server, each room takes a run of its own. -/
theorem room_run {l : LobbyRef} {σ : Server} (as : List ServerAction) (hv : v.room = σ.rooms l) :
    ∃ bs, (Machine.run (step l) v bs).room = (Machine.run Server.step σ as).rooms l := by
  induction as generalizing σ v with
  | nil => exact ⟨[], hv⟩
  | cons action as ih =>
    rcases room_step (l := l) σ action with hsame | ⟨b, hb⟩
    · exact ih (hv.trans hsame.symm)
    · obtain ⟨bs, hbs⟩ := ih (hb v hv)
      exact ⟨b :: bs, hbs⟩

end Watched

end MultiSlider
