import MultiSlider.Session.Steps

/-! What the players are shown. A `SessionState` is the session as it is after the event that sent it, so the
    states that a session sends are ordered: a later one shows of each player the same data, or data of a
    higher timestamp, or that the player is gone, and of the shared data likewise. Two players who have
    been sent different states can therefore tell which is the newer one, in whatever order these arrive. -/

namespace MultiSlider

/-- What a `SessionState` shows. -/
structure Snapshot where
  players : List PlayerData
  sharedData : String
  sharedTimestamp : Int
deriving DecidableEq, Repr

/-- What an effect shows to the player it is sent to. -/
def Effect.snapshot : Effect → Option Snapshot
  | .send (.json (.sessionState data sharedData sharedTimestamp)) _ => some ⟨data, sharedData, sharedTimestamp⟩
  | _ => none

/-- `q` does not take back what `p` shows of a player: it is of no lower timestamp, of the same data where the
    timestamps agree, and nobody who is gone in `p` is alive in `q`. -/
structure PlayerData.Older (p q : PlayerData) : Prop where
  alive : q.alive = true → p.alive = true
  timestamp : q.alive = true → p.timestamp ≤ q.timestamp
  data : q.alive = true → p.timestamp = q.timestamp → p.data = q.data

/-- Both show the same players, and `t` takes back nothing that `s` shows. -/
structure Snapshot.Older (s t : Snapshot) : Prop where
  names : s.players.map (·.name) = t.players.map (·.name)
  players : ∀ p ∈ s.players, ∀ q ∈ t.players, p.name = q.name → p.Older q
  sharedTimestamp : s.sharedTimestamp ≤ t.sharedTimestamp
  sharedData : s.sharedTimestamp = t.sharedTimestamp → s.sharedData = t.sharedData

/-- An overwrite raises the timestamp of the shared data, or leaves them as they are. -/
theorem SharedStatistics.overwrite_cases (shared : SharedStatistics) (timestamp : Int) (sharedData : Option String) :
    shared.overwrite timestamp sharedData = shared ∨
      shared.updateTimestamp < (shared.overwrite timestamp sharedData).updateTimestamp := by
  cases sharedData with
  | none => exact Or.inl rfl
  | some sharedData =>
    unfold SharedStatistics.overwrite
    dsimp only
    split
    · rename_i h
      exact Or.inr h.2
    · exact Or.inl rfl

namespace SessionActor

/-- What a `SessionState` would show now. -/
def snapshot (a : SessionActor) : Snapshot :=
  ⟨a.gatherSessionData, a.sharedStats.privateData, a.sharedStats.updateTimestamp⟩

/-- What an event shows to the players, one state for each that it is sent to. -/
def snapshots (accepts : Int → Bool) (a : SessionActor) (e : Event) : List Snapshot :=
  (a.react accepts e).2.filterMap Effect.snapshot

/-- A session later in a run, as far as a `SessionState` shows it. -/
structure Precedes (a b : SessionActor) : Prop where
  keys : a.stats.keys = b.stats.keys
  live : ∀ name q, b.stats.lookup name = some (some q) → ∃ p, a.stats.lookup name = some (some p) ∧
    p.updateTimestamp ≤ q.updateTimestamp ∧
    (p.updateTimestamp = q.updateTimestamp → p.privateData = q.privateData)
  shared : a.sharedStats = b.sharedStats ∨ a.sharedStats.updateTimestamp < b.sharedStats.updateTimestamp

variable {accepts : Int → Bool} {a b c : SessionActor}

theorem Precedes.refl (a : SessionActor) : a.Precedes a where
  keys := rfl
  live _ q hq := ⟨q, hq, le_rfl, fun _ => rfl⟩
  shared := Or.inl rfl

theorem Precedes.trans (hab : a.Precedes b) (hbc : b.Precedes c) : a.Precedes c where
  keys := hab.keys.trans hbc.keys
  live name r hr := by
    obtain ⟨q, hq, hle, hdata⟩ := hbc.live name r hr
    obtain ⟨p, hp, hle', hdata'⟩ := hab.live name q hq
    refine ⟨p, hp, hle'.trans hle, fun heq => ?_⟩
    have hpq : p.updateTimestamp = q.updateTimestamp := le_antisymm hle' (hle.trans heq.ge)
    exact (hdata' hpq).trans (hdata (hpq.symm.trans heq))
  shared := by
    rcases hab.shared with hsame | hless
    · rw [hsame]
      exact hbc.shared
    · rcases hbc.shared with hsame | hless'
      · rw [← hsame]
        exact Or.inr hless
      · exact Or.inr (hless.trans hless')

theorem snapshot_names (a : SessionActor) : a.snapshot.players.map (·.name) = a.stats.keys := by
  unfold snapshot gatherSessionData
  rw [List.map_map]
  refine List.map_congr_left fun e _ => ?_
  obtain ⟨name, entry⟩ := e
  cases entry with
  | none => rfl
  | some player => rfl

/-- What a later session shows is no older. -/
theorem Precedes.snapshot (h : a.Precedes b) : a.snapshot.Older b.snapshot where
  names := by
    rw [snapshot_names, snapshot_names]
    exact h.keys
  players p hp q hq hname := by
    obtain ⟨⟨name, x⟩, hx, rfl⟩ := List.mem_map.mp hp
    obtain ⟨⟨name', y⟩, hy, rfl⟩ := List.mem_map.mp hq
    cases y with
    | none => exact ⟨nofun, nofun, nofun⟩
    | some y =>
      obtain ⟨x', hx', hle, hdata⟩ := h.live name' y (AList.lookup_eq_some_iff.mpr hy)
      have hsame : name = name' := by
        cases x with
        | none => exact hname
        | some x => exact hname
      subst hsame
      have heq := AList.lookup_eq_some_iff.mpr hx
      rw [hx'] at heq
      cases heq
      exact ⟨fun _ => rfl, fun _ => hle, fun _ => hdata⟩
  sharedTimestamp := by
    rcases h.shared with hsame | hless
    · exact (congrArg SharedStatistics.updateTimestamp hsame).le
    · exact hless.le
  sharedData heq := by
    rcases h.shared with hsame | hless
    · exact congrArg SharedStatistics.privateData hsame
    · exact absurd heq hless.ne

/-! ### The order along a run -/

/-- A live entry stored again, with the same data or under a higher timestamp. -/
theorem Precedes.replace {name : String} {player : PlayerStatistics}
    (hlive : a.stats.lookup name = some (some player)) (player' : PlayerStatistics)
    (hnewer : player.updateTimestamp < player'.updateTimestamp ∨
      player'.updateTimestamp = player.updateTimestamp ∧ player'.privateData = player.privateData)
    (shared : SharedStatistics)
    (hshared : a.sharedStats = shared ∨ a.sharedStats.updateTimestamp < shared.updateTimestamp) :
    a.Precedes { a with stats := a.stats.replace name (some player'), sharedStats := shared } where
  keys := (AList.keys_replace ..).symm
  live name' q hq := by
    rcases AList.of_lookup_replace hq with ⟨rfl, hnew⟩ | ⟨-, hold⟩
    · cases hnew
      refine ⟨player, hlive, ?_⟩
      rcases hnewer with hless | ⟨hsame, hdata⟩
      · exact ⟨hless.le, fun heq => absurd heq hless.ne⟩
      · exact ⟨hsame.ge, fun _ => hdata.symm⟩
    · exact ⟨q, hold, le_rfl, fun _ => rfl⟩
  shared := hshared

theorem Precedes.quitImpl (a : SessionActor) (playerName : String) : a.Precedes (a.quitImpl playerName).1 where
  keys := (quitImpl_keys playerName).symm
  live name q hq := by
    rw [quitImpl_lookup] at hq
    split at hq
    · simp at hq
    · exact ⟨q, hq, le_rfl, fun _ => rfl⟩
  shared := Or.inl (quitImpl_sharedStats playerName).symm

theorem Precedes.step (accepts : Int → Bool) (running : a.state = .running) (e : Event) :
    a.Precedes (a.step accepts e) := by
  refine step_keeps (P := fun b => a.Precedes b) (.refl a) e ?_ ?_ fun b name hb => hb.trans (.quitImpl b name)
  · intro now senderAddress message a' _ hchange
    cases hchange with
    | nothing => exact .refl a
    | joined waiting => exact absurd (running.symm.trans waiting) (by decide)
    | started waiting => exact absurd (running.symm.trans waiting) (by decide)
    | touched live =>
      refine .replace live _ ?_ _ (Or.inl rfl)
      exact Or.inr ⟨rfl, rfl⟩
    | updated _ live newer =>
      refine .replace live _ (Or.inl newer) _ ?_
      rcases a.sharedStats.overwrite_cases _ _ with hsame | hless
      · exact Or.inl hsame.symm
      · exact Or.inr hless
    | numbered => exact ⟨rfl, (Precedes.refl a).live, Or.inl rfl⟩
    | departed => exact .quitImpl a _
  · intro b name player weak hlive hb
    refine hb.trans (.replace hlive _ ?_ _ (Or.inl rfl))
    exact Or.inr ⟨rfl, rfl⟩

/-! ### What is sent -/

/-- An `Update` shows the session that it leaves. -/
theorem update_shows {now : Int} {senderAddress : Address} {playerName privateData : String} {timestamp : Int}
    {forceBroadcast : Bool} {sharedData : Option String} {e : Effect}
    (he : e ∈ (a.update now senderAddress playerName timestamp forceBroadcast privateData sharedData).effects) :
    ∃ address, e = .send
      (a.update now senderAddress playerName timestamp forceBroadcast privateData sharedData).actor.sessionState
      address := by
  have answered : ∀ b : SessionActor, ∀ o, o = (if forceBroadcast then
      (⟨b, (sendEach b.sessionState b.stats.values).1, (sendEach b.sessionState b.stats.values).2⟩ : Outcome)
      else b.done [.send b.sessionState senderAddress]) → e ∈ o.effects →
      ∃ address, e = .send o.actor.sessionState address := by
    rintro b o rfl he
    split at he
    · rename_i hforce
      obtain ⟨player, -, rfl⟩ := mem_sendEach he
      exact ⟨player.address, by rw [if_pos hforce]⟩
    · rename_i hforce
      rw [List.mem_singleton.mp he]
      exact ⟨senderAddress, by rw [if_neg hforce]; rfl⟩
  revert he
  unfold update
  split
  · split
    · exact answered _ _ rfl
    · intro he
      cases he
  · intro he
    cases he

/-- What handling a message shows, the session after it shows; a session shows nothing while it waits. -/
theorem handle_snapshot {now : Int} {senderAddress : Address} {raw : Payload} {message : BackendMessage}
    (hraw : ∀ data sharedData sharedTimestamp, raw = .json (.sessionState data sharedData sharedTimestamp) →
      ∀ sender text, message ≠ .message sender text) {e : Effect}
    (he : e ∈ (a.handle accepts now senderAddress raw message).effects) {s : Snapshot} (hs : e.snapshot = some s) :
    a.state = .running ∧ s = (a.handle accepts now senderAddress raw message).actor.snapshot := by
  have hcauses := handle_causes e he
  cases hcauses with
  | state =>
    cases hstate : a.state with
    | waiting =>
      simp only [handle, hstate] at he
      cases he
    | running =>
      simp only [handle, hstate, handleRunning] at he ⊢
      obtain ⟨address, heq⟩ := update_shows he
      rw [heq] at hs
      cases hs
      exact ⟨trivial, rfl⟩
    | zombie =>
      simp only [handle, hstate] at he
      cases he
  | relay =>
    unfold Effect.snapshot at hs
    split at hs
    · rename_i heq
      cases heq
      exact absurd rfl (hraw _ _ _ rfl _ _)
    · cases hs
  | _ => cases hs

/-- What a datagram has sent was sent by the handler of its message, or is the answer to an exception. -/
theorem receive_effects {now : Int} {senderAddress : Address} {raw : Payload} {e : Effect}
    (he : e ∈ (a.receive accepts now senderAddress raw).2) : e = .send (.text responseSuck) senderAddress ∨
      a.stopped = false ∧ ∃ message, raw = .json message ∧
        e ∈ (a.handle accepts now senderAddress raw message.extract).effects := by
  unfold receive at he
  split at he
  · cases he
  · rename_i hstopped
    cases raw with
    | text raw => exact Or.inl (List.mem_singleton.mp he)
    | json message =>
      dsimp only at he
      split at he
      · rcases List.mem_append.mp he with he | he
        · exact Or.inr ⟨Bool.eq_false_iff.mpr hstopped, message, rfl, he⟩
        · exact Or.inl (List.mem_singleton.mp he)
      · exact Or.inr ⟨Bool.eq_false_iff.mpr hstopped, message, rfl, he⟩

/-- A `SessionState` that an event has sent is the session after it, and the session was running. -/
theorem mem_snapshots {e : Event} {s : Snapshot} (hs : s ∈ a.snapshots accepts e) :
    a.state = .running ∧ s = (a.step accepts e).snapshot := by
  obtain ⟨effect, he, hsnapshot⟩ := List.mem_filterMap.mp hs
  cases e with
  | keepAlive now =>
    rcases keepAlive_effects he with ⟨sessionId, rfl⟩ | ⟨address, rfl⟩
    · cases hsnapshot
    · cases hsnapshot
  | receive now senderAddress raw =>
    rcases receive_effects he with rfl | ⟨hstopped, message, rfl, he⟩
    · cases hsnapshot
    · have hactor : a.step accepts (.receive now senderAddress (.json message)) =
          (a.handle accepts now senderAddress (.json message) message.extract).actor := receive_actor hstopped message
      rw [hactor]
      refine handle_snapshot ?_ he hsnapshot
      intro data sharedData sharedTimestamp hraw sender text hmessage
      cases hraw
      cases hmessage

/-- Whatever happens to a session, in whatever order: of the `SessionState`s that it sends, to whomever, the
    later ones take back nothing that the earlier ones show, and each shows every player once. -/
theorem snapshots_grow (accepts : Int → Bool) (id : Nat) (players : List String) (events : List Event) :
    (Machine.outputs (step accepts) (snapshots accepts) (create id players) events).Pairwise Snapshot.Older ∧
      ∀ s ∈ Machine.outputs (step accepts) (snapshots accepts) (create id players) events,
        (s.players.map (·.name)).Nodup ∧ ∀ name, name ∈ s.players.map (·.name) ↔ name ∈ players := by
  constructor
  · let bounds (s : Snapshot) (a : SessionActor) :=
      a.state = .running ∧ ∃ b : SessionActor, s = b.snapshot ∧ b.Precedes a
    refine Machine.outputs_pairwise bounds ?_ ?_ ?_ ?_
    · intro a e
      refine List.pairwise_of_forall_mem_list fun s hs t ht => ?_
      rw [(mem_snapshots hs).2, (mem_snapshots ht).2]
      exact (Precedes.refl _).snapshot
    · intro a e s hs
      obtain ⟨running, hs⟩ := mem_snapshots hs
      exact ⟨step_running running e, _, hs, .refl _⟩
    · rintro a e s ⟨running, b, rfl, hb⟩
      exact ⟨step_running running e, b, rfl, hb.trans (.step accepts running e)⟩
    · rintro a e s t ⟨running, b, rfl, hb⟩ ht
      rw [(mem_snapshots ht).2]
      exact (hb.trans (.step accepts running e)).snapshot
  · intro s hs
    obtain ⟨pre, e, suf, -, hs⟩ := Machine.mem_outputs.mp hs
    obtain ⟨-, rfl⟩ := mem_snapshots hs
    have hkeys : ∀ events, (Machine.run (step accepts) (create id players) events).stats.keys =
        (create id players).stats.keys :=
      Machine.run_keeps (P := fun a => a.stats.keys = (create id players).stats.keys)
        (fun a e ha => (step_keys accepts a e).trans ha) rfl
    rw [snapshot_names, step_keys, hkeys]
    exact ⟨AList.keys_nodup _, fun name => AList.mem_ofKeys⟩

end SessionActor

end MultiSlider
