import MultiSlider.Lobby.Views

/-! The announcements of a room. Each change of the list of players is announced by one `Update`, which waits in
    the mailbox while the list goes on changing. The changes are read off the list itself; what the members are
    sent is compared with them. -/

namespace MultiSlider

/-- A change of the list of players. One who goes may have been the host, and may have been taken off by
    somebody else. -/
inductive ListChange where
  | joined (player : PlayerInfo2)
  | gone (player : PlayerInfo2) (wasHost ejected : Bool)
deriving DecidableEq, Repr

/-- What an `Update` says, and the connection that it leaves out. -/
structure Announcement where
  name : String
  flags : Int
  except : Option Connection
deriving DecidableEq, Repr

/-- How a change is to be announced: to everybody but the player's own connection, and an ejection to everybody. -/
def ListChange.announcement : ListChange → Announcement
  | .joined player => ⟨player.name, flagJoined, some player.actor⟩
  | .gone player wasHost ejected =>
    ⟨player.name, (flagLeft ||| (if wasHost then flagNewHost else 0) : Nat),
      if ejected then none else some player.actor⟩

/-- The changes that lead from one list to the other, by a message of the sender's. -/
def listChanges (before after : List PlayerInfo2) (sender : Connection) : List ListChange :=
  (after.filter (· ∉ before)).map .joined ++
    (before.filter (· ∉ after)).map fun player => .gone player (before.head? = some player) (player.actor ≠ sender)

/-- The announcement that an `Update` in the mailbox will make. -/
def Mail.announcement (mail : Mail) : Option Announcement :=
  match mail.message with
  | .update _ _ senderName toSelf flags => some ⟨senderName, flags, if toSelf then none else some mail.sender⟩
  | _ => none

/-- The player that an `Update` names, and its flags. -/
def TcpPayload.notice : TcpPayload → Option (String × Int)
  | .json (.update _ _ senderName _ flags) => some (senderName, flags)
  | _ => none

/-- Who is announced, and with which flags. -/
def Announcement.notice (n : Announcement) : String × Int := (n.name, n.flags)

/-- The `Update`s written on a connection, in order. -/
def notices (c : Connection) (sent : List Write) : List (String × Int) :=
  (sent.filter (·.receiver = c)).filterMap (·.payload.notice)

/-- How much had been written, announced and changed when a connection joined. -/
structure Mark where
  sent : Nat
  told : Nat
  changes : Nat
deriving DecidableEq, Repr

/-- A room with all that it has written, the changes of its list since it opened, the number of those that have
    been announced, and for each connection the mark of its last joining. -/
structure Chronicle extends Watched where
  changes : List ListChange
  told : Nat
  mark : Connection → Mark

namespace Chronicle

/-- A new room, of which nothing has been told. -/
def start : Chronicle := ⟨.start, [], 0, fun _ => ⟨0, 0, 0⟩⟩

/-- The room after its actor has handled a message. -/
def observe (v : Chronicle) (mail : Mail) (w : Watched) : Chronicle :=
  let changes := v.changes ++
    if v.room.Open then listChanges v.room.actor.players w.room.actor.players mail.sender else []
  { w with
    changes
    told := v.told + if v.room.Open ∧ mail.announcement.isSome then 1 else 0
    mark := fun c =>
      if ∃ player ∈ w.room.actor.players, player ∉ v.room.actor.players ∧ player.actor = c then
        ⟨v.sent.length, v.told, changes.length⟩
      else v.mark c }

/-- One action on the room whose actor is `self`. -/
def step (self : LobbyRef) (v : Chronicle) : RoomAction → Chronicle
  | .post mail => { v with toWatched := v.toWatched.step self (.post mail) }
  | .handle d answer =>
    match v.room.mailbox with
    | mail :: _ => v.observe mail (v.toWatched.step self (.handle d answer))
    | [] => v

/-- An `Update` that a player sends. -/
def sentUpdate : LobbyMessage → Bool
  | .json (some (.update ..)) => true
  | _ => false

/-- Players send no `Update`, and no connection joins the room while it is in it. -/
def Plain (v : Chronicle) : RoomAction → Prop
  | .post mail => sentUpdate mail.message = false ∧ mail.message.isUpdate = false
  | .handle d answer => v.NoRejoin (.handle d answer)

instance (v : Chronicle) : (action : RoomAction) → Decidable (Plain v action)
  | .post mail => inferInstanceAs (Decidable (sentUpdate mail.message = false ∧ mail.message.isUpdate = false))
  | .handle d answer => inferInstanceAs (Decidable (v.NoRejoin (.handle d answer)))

/-- While the room is open, the changes from the number `told` on are those whose `Update` is in the mailbox, in
    order. Each member has been sent, since it joined, announcements of some earlier changes, and then one `Update`
    for each change since it joined that has been announced, in order. -/
structure Announced (v : Chronicle) : Prop where
  waiting : v.room.mailbox.filterMap (·.announcement) = (v.changes.drop v.told).map (·.announcement)
  once : ∀ player ∈ v.room.actor.players, ∃ early, early.Sublist (v.changes.take (v.mark player.actor).changes) ∧
    notices player.actor (v.sent.drop (v.mark player.actor).sent) =
      (early ++ (v.changes.take v.told).drop (v.mark player.actor).changes).map (·.announcement.notice)

/-- The changes announced since a connection joined and not meant to leave it out. -/
def heard (v : Chronicle) (c : Connection) : List ListChange :=
  ((v.changes.take v.told).drop (v.mark c).told).filter fun change => change.announcement.except ≠ some c

/-- A member is sent what it is to hear, and is to hear of all changes since it joined. -/
structure Informed (v : Chronicle) (c : Connection) : Prop where
  sent : (v.mark c).sent ≤ v.sent.length
  told : (v.mark c).told ≤ (v.mark c).changes ∧ (v.mark c).told ≤ v.told
  changes : (v.mark c).changes ≤ v.changes.length
  inbox : notices c (v.sent.drop (v.mark c).sent) = (v.heard c).map (·.announcement.notice)
  others : ∀ change ∈ v.changes.drop (v.mark c).changes, change.announcement.except ≠ some c

/-- Nothing is announced before the room opens; while it is open all changes are or will be. -/
structure Heralded (v : Chronicle) : Prop where
  plain : ∀ mail ∈ v.room.mailbox, sentUpdate mail.message = false
  initial : v.room.actor.behaviour = .initial → v.room.actor.players = [] ∧ v.changes = [] ∧ v.told = 0 ∧
    ∀ mail ∈ v.room.mailbox, mail.announcement = none
  distinct : v.room.Open → (v.room.actor.players.map (·.actor)).Nodup
  told : v.told ≤ v.changes.length
  waiting : v.room.Open →
    v.room.mailbox.filterMap (·.announcement) = (v.changes.drop v.told).map (·.announcement)
  informed : v.room.Open → ∀ player ∈ v.room.actor.players, Informed v player.actor

variable {v : Chronicle} {self : LobbyRef} {c : Connection}

/-! ### Lists -/

theorem notices_append {sent writes : List Write} :
    notices c (sent ++ writes) = notices c sent ++ notices c writes := by
  simp [notices]

theorem notices_eq_nil {writes : List Write} (h : ∀ w ∈ writes, w.payload.notice = none) : notices c writes = [] :=
  List.filterMap_eq_nil_iff.mpr fun w hw => h w (List.mem_of_mem_filter hw)

/-- Nobody is in the one list and not in the other. -/
theorem filter_not_mem_eq_nil {players others : List PlayerInfo2} (h : players ⊆ others) :
    players.filter (· ∉ others) = [] := by
  rw [List.filter_eq_nil_iff]
  intro player hplayer hnot
  exact of_decide_eq_true hnot (h hplayer)

/-- What is not about a room is no `Update`. -/
theorem notice_of_plain {w : Write} (h : w.payload.roomInfo = none) : w.payload.notice = none := by
  unfold TcpPayload.notice
  split
  · rename_i hpayload
    rw [hpayload] at h
    cases h
  · rfl

theorem listChanges_self (players : List PlayerInfo2) (sender : Connection) :
    listChanges players players sender = [] := by
  unfold listChanges
  rw [filter_not_mem_eq_nil (List.Subset.refl players)]
  rfl

theorem listChanges_joined {players : List PlayerInfo2} {player : PlayerInfo2} (sender : Connection)
    (h : player ∉ players) : listChanges players (players ++ [player]) sender = [.joined player] := by
  have hnew : (players ++ [player]).filter (· ∉ players) = [player] := by
    rw [List.filter_append, filter_not_mem_eq_nil (List.Subset.refl players), List.nil_append]
    simp [h]
  unfold listChanges
  rw [hnew, filter_not_mem_eq_nil (List.subset_append_left players [player])]
  rfl

theorem listChanges_erase {players : List PlayerInfo2} {player : PlayerInfo2} (sender : Connection)
    (hdistinct : players.Nodup) (h : player ∈ players) : listChanges players (players.erase player) sender =
      [.gone player (players.head? = some player) (player.actor ≠ sender)] := by
  have hgone : players.filter (· ∉ players.erase player) = [player] := by
    have hsame : players.filter (· ∉ players.erase player) = players.filter (· = player) := by
      refine List.filter_congr fun other hother => ?_
      simp [hdistinct.mem_erase_iff, hother]
    rw [hsame, List.filter_eq, List.count_eq_one_of_mem hdistinct h]
    rfl
  unfold listChanges
  rw [filter_not_mem_eq_nil List.erase_subset, hgone]
  rfl

theorem filter_actor {players : List PlayerInfo2} (hdistinct : (players.map (·.actor)).Nodup) {player : PlayerInfo2}
    (h : player ∈ players) : players.filter (·.actor = player.actor) = [player] := by
  have hsame : players.filter (·.actor = player.actor) = players.filter (· = player) := by
    refine List.filter_congr fun other hother => decide_eq_decide.mpr ⟨fun hactor => ?_, fun heq => by rw [heq]⟩
    exact List.inj_on_of_nodup_map hdistinct hother h hactor
  rw [hsame, List.filter_eq, List.count_eq_one_of_mem (List.Nodup.of_map _ hdistinct) h]
  rfl

/-- An `Update` for those of the players whom it is meant for. -/
theorem notices_update {players : List PlayerInfo2} (hdistinct : (players.map (·.actor)).Nodup) {player : PlayerInfo2}
    (h : player ∈ players) (meant : PlayerInfo2 → Bool) (room : RoomInfo) (data senderName : String) (toSelf : Bool)
    (flags : Int) :
    notices player.actor ((players.filter meant).map fun player =>
      ⟨player.actor, .json (.update room data senderName toSelf flags)⟩) =
      if meant player then [(senderName, flags)] else [] := by
  have hfilter : (players.filter meant).filter (·.actor = player.actor) = if meant player then [player] else [] := by
    rw [List.filter_comm, filter_actor hdistinct h]
    cases hmeant : meant player <;> simp [hmeant]
  unfold notices
  rw [List.filter_map, List.filterMap_map]
  simp only [Function.comp_def]
  rw [hfilter]
  cases meant player <;> rfl

/-! ### One message -/

/-- Who was in the room before keeps its mark. -/
theorem observe_mark (mail : Mail) {w : Watched} (hdistinct : (w.room.actor.players.map (·.actor)).Nodup)
    {player : PlayerInfo2} (hafter : player ∈ w.room.actor.players) (hbefore : player ∈ v.room.actor.players) :
    (v.observe mail w).mark player.actor = v.mark player.actor := by
  refine if_neg ?_
  rintro ⟨other, hother, hnew, hactor⟩
  exact hnew (List.inj_on_of_nodup_map hdistinct hother hafter hactor ▸ hbefore)

theorem observe_mark_new (mail : Mail) {w : Watched} {player : PlayerInfo2} (hafter : player ∈ w.room.actor.players)
    (hnew : player ∉ v.room.actor.players) :
    (v.observe mail w).mark player.actor = ⟨v.sent.length, v.told, (v.observe mail w).changes.length⟩ :=
  if_pos ⟨player, hafter, hnew, rfl⟩

/-- One who has just joined has been sent no `Update` yet. -/
theorem Informed.newcomer {mail : Mail} {room : Room} {writes : List Write} {player : PlayerInfo2}
    (hafter : player ∈ room.actor.players) (hnew : player ∉ v.room.actor.players)
    (hwrites : ∀ w ∈ writes, w.payload.notice = none) (htold : (v.observe mail ⟨room, v.sent ++ writes⟩).told = v.told)
    (hle : v.told ≤ (v.observe mail ⟨room, v.sent ++ writes⟩).changes.length) :
    Informed (v.observe mail ⟨room, v.sent ++ writes⟩) player.actor := by
  have hmark := observe_mark_new mail (v := v) (w := ⟨room, v.sent ++ writes⟩) hafter hnew
  refine ⟨?_, ?_, ?_, ?_, fun change hchange => ?_⟩
  · rw [hmark]
    show v.sent.length ≤ (v.sent ++ writes).length
    rw [List.length_append]
    exact Nat.le_add_right _ _
  · rw [hmark, htold]
    exact ⟨hle, Nat.le_refl _⟩
  · rw [hmark]
  · have hnone : (v.observe mail ⟨room, v.sent ++ writes⟩).heard player.actor = [] := by
      unfold heard
      rw [hmark, htold, List.drop_take_self, List.filter_nil]
    rw [hnone, hmark]
    show notices player.actor ((v.sent ++ writes).drop v.sent.length) = []
    rw [List.drop_left, notices_eq_nil hwrites]
  · rw [hmark, List.drop_length] at hchange
    cases hchange

/-- After a message that announces nothing itself. -/
theorem Heralded.changed (h : Heralded v) (hopen : v.room.Open) {mail : Mail} {rest forwards : List Mail}
    {writes : List Write} {actor : LobbyActor2} {changes : List ListChange} (hmailbox : v.room.mailbox = mail :: rest)
    (hsilent : mail.announcement = none) (hrunning : actor.behaviour = .running)
    (hdistinct : (actor.players.map (·.actor)).Nodup)
    (hchanges : listChanges v.room.actor.players actor.players mail.sender = changes)
    (hforwards : forwards.filterMap (·.announcement) = changes.map (·.announcement))
    (hplain : ∀ mail ∈ forwards, sentUpdate mail.message = false)
    (hwrites : ∀ w ∈ writes, w.payload.notice = none)
    (hothers : ∀ player ∈ actor.players, player ∈ v.room.actor.players → ∀ change ∈ changes,
      change.announcement.except ≠ some player.actor) :
    Heralded (v.observe mail ⟨⟨actor, rest ++ forwards⟩, v.sent ++ writes⟩) := by
  have hchanges' : (v.observe mail ⟨⟨actor, rest ++ forwards⟩, v.sent ++ writes⟩).changes = v.changes ++ changes := by
    simp only [observe, if_pos hopen, hchanges]
  have htold' : (v.observe mail ⟨⟨actor, rest ++ forwards⟩, v.sent ++ writes⟩).told = v.told := by
    simp [observe, hsilent]
  have hplain' := h.plain
  have hwaiting := h.waiting hopen
  rw [hmailbox] at hplain' hwaiting
  rw [List.filterMap_cons_none hsilent] at hwaiting
  refine ⟨fun mail' hmail' => ?_, fun hinitial => (nomatch hrunning.symm.trans hinitial), fun _ => hdistinct, ?_,
    fun _ => ?_, fun _ player hplayer => ?_⟩
  -- The new messages are the announcements of these changes, at the end of the mailbox.
  · rcases List.mem_append.mp hmail' with hmail' | hmail'
    · exact hplain' mail' (List.mem_cons_of_mem _ hmail')
    · exact hplain mail' hmail'
  · rw [hchanges', htold', List.length_append]
    exact Nat.le_trans h.told (Nat.le_add_right _ _)
  · rw [hchanges', htold', List.drop_append_of_le_length h.told, List.map_append, ← hwaiting, ← hforwards]
    exact List.filterMap_append
  -- A player who was there has heard the same as before; a newcomer starts at this moment.
  · by_cases hbefore : player ∈ v.room.actor.players
    · have hmark := observe_mark mail (v := v) (w := ⟨⟨actor, rest ++ forwards⟩, v.sent ++ writes⟩) hdistinct
        hplayer hbefore
      obtain ⟨hsent, htold, hlength, hinbox, hheard⟩ := h.informed hopen player hbefore
      refine ⟨?_, ?_, ?_, ?_, fun change hchange => ?_⟩
      · rw [hmark]
        exact Nat.le_trans hsent (List.length_append ▸ Nat.le_add_right _ _)
      · rw [hmark, htold']
        exact htold
      · rw [hmark, hchanges', List.length_append]
        exact Nat.le_trans hlength (Nat.le_add_right _ _)
      · have hsame : (v.observe mail ⟨⟨actor, rest ++ forwards⟩, v.sent ++ writes⟩).heard player.actor =
            v.heard player.actor := by
          unfold heard
          rw [hmark, hchanges', htold', List.take_append_of_le_length h.told]
        rw [hsame, hmark, ← hinbox]
        show notices player.actor ((v.sent ++ writes).drop _) = _
        rw [List.drop_append_of_le_length hsent, notices_append, notices_eq_nil hwrites, List.append_nil]
      · rw [hmark, hchanges', List.drop_append_of_le_length hlength] at hchange
        rcases List.mem_append.mp hchange with hchange | hchange
        · exact hheard change hchange
        · exact hothers player hplayer hbefore change hchange
    · exact .newcomer hplayer hbefore hwrites htold' (by
        rw [hchanges', List.length_append]
        exact Nat.le_trans h.told (Nat.le_add_right _ _))

/-- After an `Update`: the first change that was still to be announced is announced. -/
theorem Heralded.told_next (h : Heralded v) (hopen : v.room.Open) (room : RoomInfo) {sender : Connection}
    {rest : List Mail} {old : RoomInfo} {data senderName : String} {toSelf : Bool} {flags : Int}
    (hmailbox : v.room.mailbox = ⟨sender, .update old data senderName toSelf flags⟩ :: rest) :
    Heralded (v.observe ⟨sender, .update old data senderName toSelf flags⟩ ⟨⟨v.room.actor, rest⟩,
      v.sent ++ (v.room.actor.players.filter fun player => toSelf || player.actor ≠ sender).map fun player =>
        ⟨player.actor, .json (.update room data senderName toSelf flags)⟩⟩) := by
  generalize hwrites : (v.room.actor.players.filter fun player => toSelf || player.actor ≠ sender).map (fun player =>
    (⟨player.actor, .json (.update room data senderName toSelf flags)⟩ : Write)) = writes
  generalize hmail : (⟨sender, .update old data senderName toSelf flags⟩ : Mail) = mail at hmailbox
  have hannounces : mail.announcement = some ⟨senderName, flags, if toSelf then none else some sender⟩ := by
    rw [← hmail]
    rfl
  have hdistinct := h.distinct hopen
  have hplain := h.plain
  have hwaiting := h.waiting hopen
  rw [hmailbox] at hplain hwaiting
  rw [List.filterMap_cons_some hannounces] at hwaiting
  obtain ⟨change, later, hdrop, hchange, hlater⟩ := List.map_eq_cons_iff.mp hwaiting.symm
  have hless : v.told < v.changes.length := by
    by_contra hnot
    rw [List.drop_eq_nil_of_le (Nat.le_of_not_lt hnot)] at hdrop
    cases hdrop
  have htake : v.changes.take (v.told + 1) = v.changes.take v.told ++ [change] := by
    rw [List.take_add, hdrop]
    rfl
  have hchanges' : (v.observe mail ⟨⟨v.room.actor, rest⟩, v.sent ++ writes⟩).changes = v.changes := by
    simp only [observe, if_pos hopen, listChanges_self, List.append_nil]
  have htold' : (v.observe mail ⟨⟨v.room.actor, rest⟩, v.sent ++ writes⟩).told = v.told + 1 := by
    simp [observe, hannounces, hopen]
  refine ⟨fun mail' hmail' => hplain mail' (List.mem_cons_of_mem _ hmail'),
    fun hinitial => (nomatch hopen.1.symm.trans hinitial), fun _ => hdistinct, ?_, fun _ => ?_,
    fun _ player hplayer => ?_⟩
  · rw [hchanges', htold']
    exact hless
  · rw [hchanges', htold', ← List.drop_drop, hdrop]
    exact hlater.symm
  · have hmark := observe_mark mail (v := v) (w := ⟨⟨v.room.actor, rest⟩, v.sent ++ writes⟩) hdistinct
      hplayer hplayer
    obtain ⟨hsent, ⟨hbefore, htold⟩, hlength, hinbox, hheard⟩ := h.informed hopen player hplayer
    refine ⟨?_, ?_, ?_, ?_, ?_⟩
    · rw [hmark]
      exact Nat.le_trans hsent (List.length_append ▸ Nat.le_add_right _ _)
    · rw [hmark, htold']
      exact ⟨hbefore, Nat.le_succ_of_le htold⟩
    · rw [hmark, hchanges']
      exact hlength
    · have hnext : (v.observe mail ⟨⟨v.room.actor, rest⟩, v.sent ++ writes⟩).heard player.actor =
          v.heard player.actor ++ [change].filter fun change => change.announcement.except ≠ some player.actor := by
        unfold heard
        rw [hmark, hchanges', htold', htake, List.drop_append_of_le_length, List.filter_append]
        rw [List.length_take, Nat.min_eq_left h.told]
        exact htold
      -- The change is heard exactly if the `Update` is meant for the player.
      have hmeant : (toSelf || decide (player.actor ≠ sender)) =
          decide (change.announcement.except ≠ some player.actor) := by
        rw [hchange]
        cases toSelf <;> simp [eq_comm]
      rw [hnext, List.map_append, hmark]
      show notices player.actor ((v.sent ++ writes).drop _) = _
      rw [List.drop_append_of_le_length hsent, notices_append, hinbox, ← hwrites, notices_update hdistinct hplayer,
        hmeant,
        List.filter_singleton]
      have hnotice : change.announcement.notice = (senderName, flags) := by
        rw [hchange]
        rfl
      cases decide (change.announcement.except ≠ some player.actor) with
      | false => rfl
      | true =>
        show _ ++ [(senderName, flags)] = _ ++ [change.announcement.notice]
        rw [hnotice]
    · rw [hmark, hchanges']
      exact hheard

/-- A room that is not open after the message. -/
theorem Heralded.of_not_open {mail : Mail} {w : Watched} (hopen : ¬w.room.Open)
    (hplain : ∀ mail ∈ w.room.mailbox, sentUpdate mail.message = false)
    (hinitial : w.room.actor.behaviour = .initial → w.room.actor.players = [] ∧ (v.observe mail w).changes = [] ∧
      (v.observe mail w).told = 0 ∧ ∀ mail ∈ w.room.mailbox, mail.announcement = none)
    (htold : (v.observe mail w).told ≤ (v.observe mail w).changes.length) : Heralded (v.observe mail w) :=
  ⟨hplain, hinitial, fun h => absurd h hopen, htold, fun h => absurd h hopen, fun h => absurd h hopen⟩

/-- A message that announces nothing leaves the number of announcements as it is. -/
theorem Heralded.told_le (h : Heralded v) {mail : Mail} {w : Watched}
    (hsilent : v.room.Open → mail.announcement = none) :
    (v.observe mail w).told ≤ (v.observe mail w).changes.length := by
  have hnone : ¬(v.room.Open ∧ mail.announcement.isSome = true) := by
    rintro ⟨hopen, hsome⟩
    rw [hsilent hopen] at hsome
    cases hsome
  simp only [observe, if_neg hnone, Nat.add_zero, List.length_append]
  exact Nat.le_trans h.told (Nat.le_add_right _ _)

/-- After a message that announces nothing and leaves the list as it is. -/
theorem Heralded.kept (h : Heralded v) (hopen : v.room.Open) {mail : Mail} {rest forwards : List Mail}
    {writes : List Write} (hmailbox : v.room.mailbox = mail :: rest) (hsilent : mail.announcement = none)
    (hforwards : ∀ mail ∈ forwards, mail.announcement = none ∧ sentUpdate mail.message = false)
    (hwrites : ∀ w ∈ writes, w.payload.notice = none) :
    Heralded (v.observe mail ⟨⟨v.room.actor, rest ++ forwards⟩, v.sent ++ writes⟩) := by
  have hquiet : forwards.filterMap (·.announcement) = [] :=
    List.filterMap_eq_nil_iff.mpr fun mail hmail => (hforwards mail hmail).1
  exact h.changed hopen hmailbox hsilent hopen.1 (h.distinct hopen) (listChanges_self _ _) hquiet
    (fun mail hmail => (hforwards mail hmail).2) hwrites fun _ _ _ => List.forall_mem_nil _

/-- After a message that stops the actor. -/
theorem Heralded.ended (h : Heralded v) {mail : Mail} (actor : LobbyActor2) (hsilent : mail.announcement = none)
    (hrunning : actor.behaviour = .running) (hstopped : actor.stopped = true) (mailbox : List Mail)
    (writes : List Write) :
    Heralded (v.observe mail ⟨⟨actor, if actor.stopped then [] else mailbox⟩, v.sent ++ writes⟩) := by
  rw [if_pos hstopped]
  refine .of_not_open (fun hopen' => ?_) (List.forall_mem_nil _) (fun hinitial => ?_) (h.told_le fun _ => hsilent)
  · cases hstopped.symm.trans hopen'.2
  · cases hrunning.symm.trans hinitial

/-- After a `Join` that is admitted. -/
theorem Heralded.joined (h : Heralded v) (hopen : v.room.Open) {sender : Connection} {playerName : String}
    {rest : List Mail} {actor : LobbyActor2} (room : RoomInfo)
    (hmailbox : v.room.mailbox = ⟨sender, .join playerName⟩ :: rest) (hrunning : actor.behaviour = .running)
    (hplayers : actor.players = v.room.actor.players ++ [⟨sender, playerName, false⟩])
    (hothers : ∀ player ∈ v.room.actor.players, player.actor ≠ sender) :
    Heralded (v.observe ⟨sender, .join playerName⟩
      ⟨⟨actor, rest ++ [⟨sender, .update room "" playerName false flagJoined⟩]⟩,
        v.sent ++ [⟨sender, .room room⟩]⟩) := by
  have hnew : (⟨sender, playerName, false⟩ : PlayerInfo2) ∉ v.room.actor.players := fun hmem => hothers _ hmem rfl
  have hchanges := listChanges_joined sender hnew
  rw [← hplayers] at hchanges
  refine h.changed hopen hmailbox rfl hrunning ?_ hchanges rfl (List.forall_mem_singleton.mpr rfl)
    (List.forall_mem_singleton.mpr rfl) fun player _ hbefore => List.forall_mem_singleton.mpr fun heq => ?_
  · rw [hplayers]
    exact Watched.nodup_map_newcomer (h.distinct hopen) hothers
  · exact hothers player hbefore (Option.some.inj heq).symm

/-- After a departure or an ejection. -/
theorem Heralded.removed (h : Heralded v) (hopen : v.room.Open) {mail : Mail} {player : PlayerInfo2}
    {rest forwards : List Mail} {writes : List Write} {actor : LobbyActor2}
    (hmailbox : v.room.mailbox = mail :: rest) (hsilent : mail.announcement = none)
    (hrunning : actor.behaviour = .running) (hmember : player ∈ v.room.actor.players)
    (hplayers : actor.players = v.room.actor.players.erase player)
    (hforwards : forwards.filterMap (·.announcement) =
      [(ListChange.gone player (v.room.actor.players.head? = some player)
        (player.actor ≠ mail.sender)).announcement])
    (hplain : ∀ mail ∈ forwards, sentUpdate mail.message = false)
    (hwrites : ∀ w ∈ writes, w.payload.notice = none) :
    Heralded (v.observe mail ⟨⟨actor, rest ++ forwards⟩, v.sent ++ writes⟩) := by
  have hdistinct := h.distinct hopen
  have hchanges := listChanges_erase mail.sender (List.Nodup.of_map _ hdistinct) hmember
  rw [← hplayers] at hchanges
  refine h.changed hopen hmailbox hsilent hrunning ?_ hchanges hforwards hplain hwrites
    fun other hother _ => List.forall_mem_singleton.mpr fun hexcept => ?_
  · rw [hplayers]
    exact hdistinct.sublist (List.erase_sublist.map _)
  · -- Only the player who is gone can be left out.
    rw [hplayers] at hother
    simp only [ListChange.announcement] at hexcept
    split at hexcept
    · cases hexcept
    · exact Watched.actor_ne_of_mem_erase hdistinct hmember hother (Option.some.inj hexcept).symm

theorem Heralded.running (h : Heralded v) (hopen : v.room.Open) {d : Depot} {sender : Connection}
    {message : LobbyMessage} {rest : List Mail} {o : LobbyOutcome}
    (hmailbox : v.room.mailbox = ⟨sender, message⟩ :: rest)
    (hhandled : v.room.actor.Handled d sender message o)
    (hjoin : ∀ playerName, message = .join playerName → v.room.actor.Admits playerName →
      ∀ player ∈ v.room.actor.players, player.actor ≠ sender) :
    Heralded (v.observe ⟨sender, message⟩
      ⟨⟨o.lobby, if o.lobby.stopped then [] else rest ++ o.forwards.map fun message => ⟨sender, message⟩⟩,
        v.sent ++ o.writes⟩) := by
  have hstays (b : LobbyActor2) (hb : b.stopped = v.room.actor.stopped) (mailbox : List Mail) :
      (if b.stopped then [] else mailbox) = mailbox := by
    rw [hb, hopen.2]
    rfl
  cases hhandled with
  | again =>
    rw [hstays _ rfl]
    exact h.kept hopen hmailbox rfl (List.forall_mem_nil _) (List.forall_mem_nil _)
  | refused =>
    rw [hstays _ rfl]
    exact h.kept hopen hmailbox rfl (List.forall_mem_nil _) (List.forall_mem_singleton.mpr rfl)
  | stranger =>
    rw [hstays _ rfl]
    exact h.kept hopen hmailbox rfl (List.forall_mem_nil _) (List.forall_mem_nil _)
  | spoken stays plain =>
    rw [hstays _ rfl]
    exact h.kept hopen hmailbox rfl (List.forall_mem_nil _) fun w hw => notice_of_plain (plain w hw)
  | leaving =>
    rw [hstays _ rfl]
    exact h.kept hopen hmailbox rfl (List.forall_mem_singleton.mpr ⟨rfl, rfl⟩) (List.forall_mem_nil _)
  | forwarded =>
    -- No player sends an `Update`.
    have hplain := h.plain ⟨sender, _⟩ (hmailbox ▸ List.mem_cons_self)
    cases hplain
  | @nobody old data senderName toSelf flags empty =>
    have htold := h.told_next hopen old hmailbox
    rw [empty, List.filter_nil, List.map_nil] at htold
    rw [hstays _ rfl, List.map_nil, List.append_nil]
    exact htold
  | told info =>
    rw [hstays _ rfl, List.map_nil, List.append_nil]
    exact h.told_next hopen _ hmailbox
  | emptied own last =>
    exact h.ended { v.room.actor with players := [], stopped := true } rfl hopen.1 rfl _ _
  | closed => exact h.ended v.room.actor.shutdown rfl hopen.1 rfl _ _
  | @joined playerName b room admits next info =>
    subst next
    rw [hstays _ rfl]
    exact h.joined hopen room hmailbox hopen.1 rfl (hjoin playerName rfl admits)
  | @left player b room found next info =>
    have hown : player.actor = sender := by simpa using List.find?_some found
    subst next
    rw [hstays _ rfl]
    refine h.removed hopen hmailbox rfl hopen.1 (List.mem_of_find?_eq_some found) rfl ?_
      (List.forall_mem_singleton.mpr rfl) (List.forall_mem_nil _)
    by_cases hhead : v.room.actor.players.head? = some player <;>
      simp [Mail.announcement, ListChange.announcement, LobbyActor2.getHost, hhead, hown]
  | @ejected playerName host player b room head byHost other found next info =>
    have hmember := List.mem_of_find?_eq_some found
    have hnamed : player.name = playerName := by simpa using List.find?_some found
    have hhost : host ∈ v.room.actor.players := List.mem_of_mem_head? (Option.mem_def.mpr head)
    have hne : host ≠ player := fun heq => other (heq ▸ hnamed)
    -- The player is neither the host nor on the host's connection.
    have hhead : v.room.actor.players.head? ≠ some player := fun heq => hne (Option.some.inj (head.symm.trans heq))
    have hforeign : player.actor ≠ sender := fun heq =>
      hne (List.inj_on_of_nodup_map (h.distinct hopen) hhost hmember (byHost.trans heq.symm))
    subst next
    rw [hstays _ rfl]
    refine h.removed hopen hmailbox rfl hopen.1 hmember rfl ?_ (List.forall_mem_singleton.mpr rfl)
      (List.forall_mem_singleton.mpr rfl)
    simp [Mail.announcement, ListChange.announcement, hnamed, hhead, hforeign]
  | @reconfigured newLimit newReserved host b room head byHost next info =>
    subst next
    rw [hstays _ rfl]
    refine h.changed hopen hmailbox rfl hopen.1 (h.distinct hopen) (listChanges_self _ _) rfl (List.forall_mem_nil _)
      (fun w hw => ?_) fun _ _ _ => List.forall_mem_nil _
    obtain ⟨player, -, rfl⟩ := List.mem_map.mp hw
    rfl

/-- When the room opens, nothing has changed yet and nothing is to be announced. -/
theorem Heralded.opened (h : Heralded v) (hinitial : v.room.actor.behaviour = .initial) {d : Depot}
    {sender : Connection} {message : LobbyMessage} {rest : List Mail} {o : LobbyOutcome}
    (hmailbox : v.room.mailbox = ⟨sender, message⟩ :: rest) (hopened : v.room.actor.Opened d sender self o) :
    Heralded (v.observe ⟨sender, message⟩
      ⟨⟨o.lobby, if o.lobby.stopped then [] else rest ++ o.forwards.map fun message => ⟨sender, message⟩⟩,
        v.sent ++ o.writes⟩) := by
  have hbefore : ¬v.room.Open := fun hopen => nomatch hinitial.symm.trans hopen.1
  obtain ⟨hnobody, hchanges, htold, hquiet⟩ := h.initial hinitial
  obtain ⟨name, hplayers⟩ := hopened.players
  obtain ⟨room, -, hwrites, -⟩ := hopened.depot
  have hplain := h.plain
  rw [hmailbox] at hplain hquiet
  rw [hnobody, List.nil_append] at hplayers
  rw [hopened.forwards, List.map_nil, List.append_nil]
  have hkept : ∀ mail ∈ (if o.lobby.stopped then [] else rest), mail ∈ rest := by
    split
    · exact List.forall_mem_nil _
    · exact fun _ hmail => hmail
  generalize (if o.lobby.stopped then [] else rest) = mailbox at hkept
  have hchanges' : (v.observe ⟨sender, message⟩ ⟨⟨o.lobby, mailbox⟩, v.sent ++ o.writes⟩).changes = [] := by
    simp only [observe, if_neg hbefore, List.append_nil, hchanges]
  have htold' : (v.observe ⟨sender, message⟩ ⟨⟨o.lobby, mailbox⟩, v.sent ++ o.writes⟩).told = v.told := by
    simp [observe, hbefore]
  refine ⟨fun mail hmail => hplain mail (List.mem_cons_of_mem _ (hkept mail hmail)),
    fun hinitial' => (nomatch hopened.running.symm.trans hinitial'), fun _ => ?_, ?_, fun _ => ?_,
    fun _ player hplayer => .newcomer hplayer ?_ ?_ htold' ?_⟩
  · dsimp only [observe]
    rw [hplayers]
    exact List.nodup_singleton _
  · rw [htold', htold]
    exact Nat.zero_le _
  · rw [hchanges', List.drop_nil, List.map_nil]
    exact List.filterMap_eq_nil_iff.mpr fun mail hmail => hquiet mail (List.mem_cons_of_mem _ (hkept mail hmail))
  · rw [hnobody]
    exact List.not_mem_nil
  · rw [hwrites]
    exact List.forall_mem_singleton.mpr rfl
  · rw [htold]
    exact Nat.zero_le _

theorem Heralded.handle (h : Heralded v) {d : Depot} {answer : Option Int} (hplain : Plain v (.handle d answer)) :
    Heralded (v.step self (.handle d answer)) := by
  simp only [step, Watched.step, Room.handle]
  cases hmailbox : v.room.mailbox with
  | nil => exact h
  | cons mail rest =>
    obtain ⟨sender, message⟩ := mail
    have hjoin : ∀ playerName, message = .join playerName → v.room.actor.Admits playerName →
        ∀ player ∈ v.room.actor.players, player.actor ≠ sender := by
      rintro playerName rfl
      simpa only [Plain, Watched.NoRejoin, hmailbox] using hplain
    have hsent := h.plain
    rw [hmailbox] at hsent
    dsimp only
    rcases LobbyActor2.receive_cases v.room.actor d sender self answer message with
      ⟨hrunning, hhandled⟩ | ⟨hinitial, ⟨_, _, _, _, _, _, rfl⟩, hopened⟩ | ⟨hnot, -, hforwards, hlobby⟩
    · cases hstopped : v.room.actor.stopped with
      | false => exact h.running ⟨hrunning, hstopped⟩ hmailbox hhandled hjoin
      | true =>
        -- An actor that has been stopped announces nothing any more.
        have hstopped' := hhandled.stopped hstopped
        refine .of_not_open (fun hopen => ?_) ?_ (fun hinitial => ?_) (h.told_le fun hopen => ?_)
        · cases hstopped'.symm.trans hopen.2
        · dsimp only
          rw [if_pos hstopped']
          exact List.forall_mem_nil _
        · cases hrunning.symm.trans (hhandled.behaviour.symm.trans hinitial)
        · cases hstopped.symm.trans hopen.2
    · exact h.opened hinitial hmailbox hopened
    -- The room has not opened, or it is a zombie.
    · have hbefore : ¬v.room.Open := fun hopen => hnot hopen.1
      refine .of_not_open (fun hopen => ?_) ?_ (fun hinitial => ?_) (h.told_le fun hopen => absurd hopen hbefore)
      · rcases hlobby with ⟨-, hlobby⟩ | hzombie
        · exact hnot (hlobby ▸ hopen.1)
        · cases hzombie.symm.trans hopen.1
      · dsimp only
        rw [hforwards]
        split
        · exact List.forall_mem_nil _
        · rw [List.map_nil, List.append_nil]
          exact fun mail hmail => hsent mail (List.mem_cons_of_mem _ hmail)
      · rcases hlobby with ⟨hinitial', hlobby⟩ | hzombie
        · obtain ⟨hplayers, hchanges, htold, hquiet⟩ := h.initial hinitial'
          rw [hmailbox] at hquiet
          refine ⟨?_, ?_, ?_, ?_⟩
          · dsimp only
            rwa [hlobby]
          · simp only [observe, if_neg hbefore, List.append_nil, hchanges]
          · simp [observe, hbefore, htold]
          · dsimp only
            rw [hforwards]
            split
            · exact List.forall_mem_nil _
            · rw [List.map_nil, List.append_nil]
              exact fun mail hmail => hquiet mail (List.mem_cons_of_mem _ hmail)
        · cases hzombie.symm.trans hinitial

theorem Heralded.post (h : Heralded v) {mail : Mail} (hplain : Plain v (.post mail)) :
    Heralded (v.step self (.post mail)) := by
  obtain ⟨hsent, hupdate⟩ := hplain
  have hsilent : mail.announcement = none := by
    unfold Mail.announcement
    split
    · rename_i hmessage
      rw [hmessage] at hupdate
      cases hupdate
    · rfl
  simp only [step, Watched.step, Room.post]
  split
  · exact h
  · refine ⟨fun mail' hmail' => ?_, fun hinitial => ?_, h.distinct, h.told, fun hopen => ?_,
      fun hopen player hplayer => ?_⟩
    · rcases List.mem_append.mp hmail' with hmail' | hmail'
      · exact h.plain mail' hmail'
      · rwa [List.mem_singleton.mp hmail']
    · obtain ⟨hplayers, hchanges, htold, hquiet⟩ := h.initial hinitial
      refine ⟨hplayers, hchanges, htold, fun mail' hmail' => ?_⟩
      rcases List.mem_append.mp hmail' with hmail' | hmail'
      · exact hquiet mail' hmail'
      · rwa [List.mem_singleton.mp hmail']
    · have hwaiting := h.waiting hopen
      dsimp only at hwaiting ⊢
      rw [List.filterMap_append, List.filterMap_cons_none hsilent, List.filterMap_nil, List.append_nil]
      exact hwaiting
    · obtain ⟨hsent, htold, hchanges, hinbox, hothers⟩ := h.informed hopen player hplayer
      exact ⟨hsent, htold, hchanges, hinbox, hothers⟩

/-- What is heard falls into the changes before and after the joining. -/
theorem Informed.split (h : Informed v c) : ∃ early, early.Sublist (v.changes.take (v.mark c).changes) ∧
    v.heard c = early ++ (v.changes.take v.told).drop (v.mark c).changes := by
  refine ⟨(((v.changes.take v.told).take (v.mark c).changes).drop (v.mark c).told).filter fun change =>
    change.announcement.except ≠ some c, ?_, ?_⟩
  · refine List.filter_sublist.trans ((List.drop_sublist _ _).trans ?_)
    rw [List.take_take]
    exact List.take_sublist_take_left (Nat.min_le_left _ _)
  · have hjoin : (v.changes.take v.told).drop (v.mark c).told =
        ((v.changes.take v.told).take (v.mark c).changes).drop (v.mark c).told ++
          (v.changes.take v.told).drop (v.mark c).changes := by
      have hafter : (v.changes.take v.told).drop (v.mark c).changes =
          ((v.changes.take v.told).drop (v.mark c).told).drop ((v.mark c).changes - (v.mark c).told) := by
        rw [List.drop_drop, Nat.add_sub_cancel' h.told.1]
      rw [hafter, List.drop_take (i := (v.mark c).told) (j := (v.mark c).changes), List.take_append_drop]
    unfold heard
    rw [hjoin, List.filter_append]
    refine congrArg (_ ++ ·) (List.filter_eq_self.mpr fun change hchange => decide_eq_true (h.others change ?_))
    rw [List.drop_take] at hchange
    exact List.mem_of_mem_take hchange

/-- In every run of a room in which players send no `Update` and no connection joins while it is in the room: while
    the room is open, each change is announced once to each member who was in it, in order. -/
theorem announced_once (self : LobbyRef) (as : List RoomAction) (h : Machine.Along (step self) Plain start as) :
    Machine.Always (step self) (fun v => v.room.Open → Announced v) start as := by
  have hheralded : Machine.Always (step self) Heralded start as := by
    refine Machine.always_of_along (fun v action hv hplain => ?_) ?_ h
    · cases action with
      | post mail => exact hv.post hplain
      | handle d answer => exact hv.handle hplain
    · exact ⟨List.forall_mem_nil _, fun _ => ⟨rfl, rfl, rfl, List.forall_mem_nil _⟩, fun hopen => (nomatch hopen.1),
        Nat.le_refl _, fun hopen => (nomatch hopen.1), fun hopen => nomatch hopen.1⟩
  refine hheralded.imp fun v hv hopen => ⟨hv.waiting hopen, fun player hplayer => ?_⟩
  have hinformed := hv.informed hopen player hplayer
  obtain ⟨early, hearly, hheard⟩ := hinformed.split
  exact ⟨early, hearly, hheard ▸ hinformed.inbox⟩

/-- The host goes away before the second to join has been announced, and both members hear of each change since
    they joined. -/
theorem announced_once_host_leaves :
    let d := Depot.create "localhost" 8700
    let as : List RoomAction := [.post ⟨0, .init "a" "R" "" 4 0 ""⟩, .handle d none, .post ⟨1, .join "b"⟩,
      .post ⟨2, .join "c"⟩, .post ⟨0, .disconnected⟩, .handle d none, .handle d none, .handle d none, .handle d none,
      .handle d none, .handle d none]
    let v := Machine.run (step 0) start as
    Announced v ∧ v.room.mailbox = [] ∧ v.changes = [.joined ⟨1, "b", false⟩, .joined ⟨2, "c", false⟩,
        .gone ⟨0, "a", false⟩ true false] ∧
      notices 1 v.sent = [("c", ↑flagJoined), ("a", ↑(flagLeft ||| flagNewHost))] ∧
      notices 2 v.sent = [("b", ↑flagJoined), ("a", ↑(flagLeft ||| flagNewHost))] := by
  intro d as v
  have halways := announced_once 0 as (by decide +kernel)
  exact ⟨Machine.always_iff_prefix.mp halways as (List.prefix_refl as) (by decide +kernel),
    by decide +kernel, by decide +kernel, by decide +kernel, by decide +kernel⟩

end Chronicle

end MultiSlider
