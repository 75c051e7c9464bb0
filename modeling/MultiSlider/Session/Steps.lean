import MultiSlider.Lib.Machine
import MultiSlider.Session.Handlers

/-! What one event can make of a session: a datagram that it handles, or one round of its keep-alive
    task. Handling a message changes nothing, or is one of the changes listed by `Change`; a round of the
    task marks entries or ends them. What holds along a run of a session is derived from these two. -/

namespace MultiSlider

/-- What happens to a session. -/
inductive Event where
  | receive (now : Int) (senderAddress : Address) (raw : Payload)
  | keepAlive (now : Int)
deriving DecidableEq, Repr

/-- The shared data after an accepted `Update`. -/
def SharedStatistics.overwrite (shared : SharedStatistics) (timestamp : Int) : Option String → SharedStatistics
  | some sharedData =>
    if sharedData ≠ "" ∧ shared.updateTimestamp < timestamp then ⟨timestamp, sharedData⟩ else shared
  | none => shared

namespace SessionActor

/-- The session after an event, and what the event does besides. -/
def react (accepts : Int → Bool) (a : SessionActor) : Event → SessionActor × List Effect
  | .receive now senderAddress raw => a.receive accepts now senderAddress raw
  | .keepAlive now => a.keepAlive now

/-- The actor after an event. -/
def step (accepts : Int → Bool) (a : SessionActor) (e : Event) : SessionActor := (a.react accepts e).1

/-- What a session can be after messages and rounds of its keep-alive task. -/
inductive Reachable (accepts : Int → Bool) : SessionActor → Prop where
  | create (id : Nat) (players : List String) : Reachable accepts (create id players)
  | receive {a : SessionActor} (now : Int) (senderAddress : Address) (raw : Payload) (h : Reachable accepts a) :
    Reachable accepts (a.receive accepts now senderAddress raw).1
  | keepAlive {a : SessionActor} (now : Int) (h : Reachable accepts a) : Reachable accepts (a.keepAlive now).1

/-- Only the departure of the last player stops the session, and its keep-alive task with it. -/
def StoppedEmpty (a : SessionActor) : Prop :=
  a.stopped = true → (∀ name player, a.stats.lookup name ≠ some (some player)) ∧ a.keepAliveTask = some false

/-- The session after `Ready` of a player it waits for, before the mode is looked at. -/
def join (a : SessionActor) (now : Int) (senderAddress : Address) (playerName : String) : SessionActor :=
  { a with
    stats := a.stats.replace playerName (some ⟨senderAddress, 0, "", now, false⟩)
    seqStats := Function.update a.seqStats playerName (some ⟨1, 0, 0⟩) }

/-- What handling a message can make of a session. -/
inductive Change (a : SessionActor) (now : Int) (senderAddress : Address) : BackendMessage → SessionActor → Prop
  | nothing {message : BackendMessage} : Change a now senderAddress message a
  | joined {playerName : String} (waiting : a.state = .waiting) (member : playerName ∈ a.stats)
    (missing : (a.join now senderAddress playerName).stats.values.any (·.isNone) = true) :
    Change a now senderAddress (.ready playerName) (a.join now senderAddress playerName)
  | started {playerName : String} (waiting : a.state = .waiting) (member : playerName ∈ a.stats)
    (full : (a.join now senderAddress playerName).stats.values.any (·.isNone) = false) :
    Change a now senderAddress (.ready playerName)
      { a.join now senderAddress playerName with state := .running, keepAliveTask := some true }
  | touched {playerName : String} {timestamp : Int} {player : PlayerStatistics}
    (live : a.stats.lookup playerName = some (some player)) :
    Change a now senderAddress (.keepAlive (some playerName) timestamp)
      { a with stats := a.stats.replace playerName (some { player with lastPingTime := now }) }
  | updated {playerName privateData : String} {timestamp : Int} {forceBroadcast : Bool} {sharedData : Option String}
    {player : PlayerStatistics} (running : a.state = .running)
    (live : a.stats.lookup playerName = some (some player)) (newer : player.updateTimestamp < timestamp) :
    Change a now senderAddress (.update playerName timestamp forceBroadcast privateData sharedData)
      { a with
        stats := a.stats.replace playerName
          (some { player with updateTimestamp := timestamp, privateData, lastPingTime := now })
        sharedStats := a.sharedStats.overwrite timestamp sharedData }
  | numbered {playerName : String} {delay syncId seqIdx : Int} {info : MessagesSequenceInfo}
    (running : a.state = .running) :
    Change a now senderAddress (.requestSync playerName delay syncId seqIdx)
      { a with seqStats := Function.update a.seqStats playerName (some info) }
  | departed {playerName : String} (running : a.state = .running) :
    Change a now senderAddress (.quit playerName) (a.quitImpl playerName).1

/-- What handling a message can send, schedule and close, the answer to an exception apart. -/
inductive Causes (a : SessionActor) (senderAddress : Address) (raw : Payload) : BackendMessage → Effect → Prop
  | unknown {playerName : String} (waiting : a.state = .waiting) :
    Causes a senderAddress raw (.ready playerName) (.send (.text responseSuck) senderAddress)
  | awaiting {playerName : String} (waiting : a.state = .waiting) :
    Causes a senderAddress raw (.ready playerName) (.send (.text responseSucc) senderAddress)
  | start {playerName : String} {address : Address} (waiting : a.state = .waiting) :
    Causes a senderAddress raw (.ready playerName) (.send (.json .start) address)
  | state {playerName privateData : String} {timestamp : Int} {forceBroadcast : Bool} {sharedData : Option String}
    {b : SessionActor} {address : Address} : Causes a senderAddress raw
      (.update playerName timestamp forceBroadcast privateData sharedData) (.send b.sessionState address)
  | relay {sender data : String} {address : Address} :
    Causes a senderAddress raw (.message sender data) (.send raw address)
  | sync {playerName : String} {delay syncId seqIdx msgIdx : Int} :
    Causes a senderAddress raw (.requestSync playerName delay syncId seqIdx) (.schedule delay syncId msgIdx)
  | ack {playerName : String} {delay syncId seqIdx : Int} : Causes a senderAddress raw
      (.requestSync playerName delay syncId seqIdx) (.send (.json (.ack seqIdx)) senderAddress)
  | clock {id requestTime responseTime now : Int} : Causes a senderAddress raw
      (.clockSync id requestTime responseTime) (.send (.json (.clockSync id requestTime now)) senderAddress)
  | quit {playerName : String} {address : Address} :
    Causes a senderAddress raw (.quit playerName) (.send (.json (.quit playerName)) address)
  | close {playerName : String} (running : a.state = .running) :
    Causes a senderAddress raw (.quit playerName) (.closeSession a.id)

variable {accepts : Int → Bool} {a : SessionActor} {now : Int} {senderAddress : Address}

/-! ### Handling a message -/

theorem Change.readyWaiting (waiting : a.state = .waiting) (playerName : String) :
    a.Change now senderAddress (.ready playerName) (a.readyWaiting now senderAddress playerName).actor := by
  unfold SessionActor.readyWaiting
  split
  · rename_i member
    dsimp only
    split
    · rename_i missing
      exact .joined waiting member missing
    · rename_i full
      exact .started waiting member (Bool.eq_false_iff.mpr full)
  · exact .nothing

theorem Change.touch (playerName : Option String) (timestamp : Int) :
    a.Change now senderAddress (.keepAlive playerName timestamp) (a.touch now playerName).actor := by
  unfold SessionActor.touch
  split
  · rename_i player name live
    exact .touched live
  · exact .nothing
  · exact .nothing

/-- What an `Update` of a live player does to the session. -/
theorem update_actor {playerName : String} {player : PlayerStatistics}
    (live : a.stats.lookup playerName = some (some player)) (privateData : String) (timestamp : Int)
    (forceBroadcast : Bool) (sharedData : Option String) :
    (a.update now senderAddress playerName timestamp forceBroadcast privateData sharedData).actor =
      if player.updateTimestamp < timestamp then
        { a with
          stats := a.stats.replace playerName
            (some { player with updateTimestamp := timestamp, privateData, lastPingTime := now })
          sharedStats := a.sharedStats.overwrite timestamp sharedData }
      else a := by
  have answered : ∀ b : SessionActor, (if forceBroadcast then
      (⟨b, (sendEach b.sessionState b.stats.values).1, (sendEach b.sessionState b.stats.values).2⟩ : Outcome)
      else b.done [.send b.sessionState senderAddress]).actor = b := by
    intro b
    split
    · rfl
    · rfl
  simp only [update, live]
  split
  · cases sharedData with
    | none => exact answered _
    | some shared =>
      refine (answered _).trans ?_
      dsimp only [SharedStatistics.overwrite]
      split
      · rfl
      · rfl
  · rfl

theorem Change.update (running : a.state = .running) (playerName privateData : String) (timestamp : Int)
    (forceBroadcast : Bool) (sharedData : Option String) :
    a.Change now senderAddress (.update playerName timestamp forceBroadcast privateData sharedData)
      (a.update now senderAddress playerName timestamp forceBroadcast privateData sharedData).actor := by
  cases hentry : a.stats.lookup playerName with
  | none =>
    simp only [SessionActor.update, hentry]
    exact .nothing
  | some entry =>
    cases entry with
    | none =>
      simp only [SessionActor.update, hentry]
      exact .nothing
    | some player =>
      rw [update_actor hentry]
      split
      · rename_i newer
        exact .updated running hentry newer
      · exact .nothing

theorem Change.requestSync (running : a.state = .running) (playerName : String) (delay syncId seqIdx : Int) :
    a.Change now senderAddress (.requestSync playerName delay syncId seqIdx)
      (a.requestSync accepts senderAddress playerName delay syncId seqIdx).actor := by
  unfold SessionActor.requestSync
  split
  · cases hack : a.checkAcknowlegment seqIdx playerName with
    | none => exact .nothing
    | some b =>
      unfold SessionActor.checkAcknowlegment at hack
      cases hfound : a.seqStats playerName with
      | none => simp [hfound] at hack
      | some info =>
        simp only [hfound] at hack
        obtain ⟨info', -, rfl⟩ := Option.map_eq_some_iff.mp hack
        have numbered : a.Change now senderAddress (.requestSync playerName delay syncId seqIdx)
            { a with seqStats := Function.update a.seqStats playerName (some (nextLocal info')) } := .numbered running
        simp only [Function.update_self, Function.update_idem]
        split
        · exact numbered
        · exact numbered
  · split
    · exact .nothing
    · exact .nothing

theorem Change.handle (accepts : Int → Bool) (a : SessionActor) (now : Int) (senderAddress : Address) (raw : Payload)
    (message : BackendMessage) :
    a.Change now senderAddress message (a.handle accepts now senderAddress raw message).actor := by
  unfold SessionActor.handle
  cases hstate : a.state with
  | waiting =>
    cases message with
    | ready playerName => exact .readyWaiting hstate playerName
    | keepAlive playerName timestamp => exact .touch playerName timestamp
    | _ => exact .nothing
  | running =>
    cases message with
    | update playerName timestamp forceBroadcast privateData sharedData =>
      exact .update hstate playerName privateData timestamp forceBroadcast sharedData
    | keepAlive playerName timestamp => exact .touch playerName timestamp
    | requestSync playerName delay syncId seqIdx => exact .requestSync hstate playerName delay syncId seqIdx
    | quit playerName => exact .departed hstate
    | _ => exact .nothing
  | zombie => exact .nothing

/-- The message is sent to nobody, or to each that the loop reaches. -/
theorem causes_sendEach {raw payload : Payload} {message : BackendMessage} {players : List (Option PlayerStatistics)}
    (h : ∀ address, a.Causes senderAddress raw message (.send payload address)) :
    ∀ e ∈ (sendEach payload players).1, a.Causes senderAddress raw message e := by
  intro e he
  obtain ⟨player, -, rfl⟩ := mem_sendEach he
  exact h player.address

theorem quitImpl_effects {playerName : String} {e : Effect} (he : e ∈ (a.quitImpl playerName).2) :
    e = .closeSession a.id := by
  unfold quitImpl at he
  split at he
  · dsimp only at he
    split at he
    · exact List.mem_singleton.mp he
    · cases he
  · cases he

theorem handle_causes {raw : Payload} {message : BackendMessage} :
    ∀ e ∈ (a.handle accepts now senderAddress raw message).effects, a.Causes senderAddress raw message e := by
  have hnil {message : BackendMessage} : ∀ e ∈ [], a.Causes senderAddress raw message e := List.forall_mem_nil _
  have hone {message : BackendMessage} {effect : Effect} (h : a.Causes senderAddress raw message effect) :
      ∀ e ∈ [effect], a.Causes senderAddress raw message e := by
    intro e he
    rw [List.mem_singleton.mp he]
    exact h
  unfold handle
  cases hstate : a.state with
  | waiting =>
    cases message with
    | ready playerName =>
      simp only [handleWaiting, readyWaiting]
      split
      · split
        · exact hone (.awaiting hstate)
        · exact causes_sendEach fun _ => .start hstate
      · exact hone (.unknown hstate)
    | keepAlive playerName timestamp =>
      simp only [handleWaiting, touch]
      split <;> exact hnil
    | _ => exact hnil
  | running =>
    cases message with
    | update playerName timestamp forceBroadcast privateData sharedData =>
      -- The state goes to all players or to the sender, whatever the update has changed.
      have answered (b : SessionActor) : ∀ e ∈ (if forceBroadcast then
          (⟨b, (sendEach b.sessionState b.stats.values).1, (sendEach b.sessionState b.stats.values).2⟩ : Outcome)
          else b.done [.send b.sessionState senderAddress]).effects, a.Causes senderAddress raw
            (.update playerName timestamp forceBroadcast privateData sharedData) e := by
        split
        · exact causes_sendEach fun _ => .state
        · exact hone .state
      simp only [handleRunning, update]
      split
      · split
        · exact answered _
        · exact hnil
      · exact hnil
    | message sender data => exact causes_sendEach fun _ => .relay
    | keepAlive playerName timestamp =>
      simp only [handleRunning, touch]
      split <;> exact hnil
    | requestSync playerName delay syncId seqIdx =>
      simp only [handleRunning, requestSync]
      split
      · split
        · split
          · split
            · exact List.forall_mem_cons.mpr ⟨.sync, hone .ack⟩
            · exact hnil
          · exact hnil
        · exact hnil
      · split
        · exact hone .sync
        · exact hnil
    | clockSync id requestTime responseTime => exact hone .clock
    | quit playerName =>
      refine List.forall_mem_append.mpr ⟨fun e he => ?_, fun e he => ?_⟩
      -- `quitImpl` can end the session; the relay tells the players that are left.
      · rw [quitImpl_effects he]
        exact .close hstate
      · obtain ⟨player, -, rfl⟩ := List.mem_map.mp he
        exact .quit
    | _ => exact hnil
  | zombie => exact hnil

/-- The answer to an exception leaves the session as the handler left it. -/
theorem receive_actor (hstopped : a.stopped = false) (message : BackendMessage) :
    (a.receive accepts now senderAddress (.json message)).1 =
      (a.handle accepts now senderAddress (.json message) message.extract).actor := by
  simp only [receive, hstopped, Bool.false_eq_true, if_false]
  split
  · rfl
  · rfl

theorem receive_update (hstopped : a.stopped = false) (running : a.state = .running) {playerName : String}
    {player : PlayerStatistics} (live : a.stats.lookup playerName = some (some player)) (timestamp : Int)
    (forceBroadcast : Bool) (privateData : String) (sharedData : Option String) :
    (a.receive accepts now senderAddress
      (.json (.update playerName timestamp forceBroadcast privateData sharedData))).1 =
      if player.updateTimestamp < toLong timestamp then
        { a with
          stats := a.stats.replace playerName
            (some { player with updateTimestamp := toLong timestamp, privateData, lastPingTime := now })
          sharedStats := a.sharedStats.overwrite (toLong timestamp) sharedData }
      else a := by
  have hhandle : ∀ raw, a.handle accepts now senderAddress raw
      (.update playerName (toLong timestamp) forceBroadcast privateData sharedData) =
      a.update now senderAddress playerName (toLong timestamp) forceBroadcast privateData sharedData := by
    intro raw
    simp only [handle, running]
    rfl
  rw [receive_actor hstopped, BackendMessage.extract, hhandle]
  exact update_actor live privateData (toLong timestamp) forceBroadcast sharedData

variable (accepts now senderAddress) in
/-- The handling of a `Quit` in a session that runs. -/
theorem react_quit (hstopped : a.stopped = false) (running : a.state = .running) (playerName : String) :
    a.react accepts (.receive now senderAddress (.json (.quit playerName))) = ((a.quitImpl playerName).1,
      (a.quitImpl playerName).2 ++ ((a.quitImpl playerName).1.livePlayers.filter (·.address ≠ senderAddress)).map
        fun player => .send (.json (.quit playerName)) player.address) := by
  simp [react, receive, hstopped, handle, running, handleRunning, BackendMessage.extract, quit, done]

/-- What a datagram has the session send, schedule and close. -/
theorem receive_causes {raw : Payload} {e : Effect} (he : e ∈ (a.receive accepts now senderAddress raw).2) :
    e = .send (.text responseSuck) senderAddress ∨
      ∃ message, raw = .json message ∧ a.Causes senderAddress raw message.extract e := by
  unfold receive at he
  split at he
  · cases he
  · cases raw with
    | text raw => exact Or.inl (List.mem_singleton.mp he)
    | json message =>
      dsimp only at he
      split at he
      · rcases List.mem_append.mp he with he | he
        · exact Or.inr ⟨message, rfl, handle_causes e he⟩
        · exact Or.inl (List.mem_singleton.mp he)
      · exact Or.inr ⟨message, rfl, handle_causes e he⟩

/-- What a datagram makes of a session. -/
theorem receive_change (accepts : Int → Bool) (a : SessionActor) (now : Int) (senderAddress : Address) (raw : Payload) :
    (a.receive accepts now senderAddress raw).1 = a ∨
      a.stopped = false ∧ ∃ message, raw = .json message ∧
        a.Change now senderAddress message.extract (a.receive accepts now senderAddress raw).1 := by
  cases hstopped : a.stopped with
  | true => exact Or.inl (by simp [receive, hstopped])
  | false =>
    cases raw with
    | text raw => exact Or.inl (by simp [receive, hstopped, raise])
    | json message =>
      refine Or.inr ⟨rfl, message, rfl, ?_⟩
      rw [receive_actor hstopped]
      exact Change.handle accepts a now senderAddress (.json message) message.extract

/-! ### Departures and rounds of the task -/

@[simp] theorem quitImpl_id (playerName : String) : (a.quitImpl playerName).1.id = a.id := by
  unfold quitImpl
  split
  · dsimp only
    split <;> rfl
  · rfl

@[simp] theorem quitImpl_sharedStats (playerName : String) : (a.quitImpl playerName).1.sharedStats = a.sharedStats := by
  unfold quitImpl
  split
  · dsimp only
    split <;> rfl
  · rfl

@[simp] theorem quitImpl_seqStats (playerName : String) : (a.quitImpl playerName).1.seqStats = a.seqStats :=
  (Quiet.quitImpl playerName).seqStats

@[simp] theorem quitImpl_state (playerName : String) : (a.quitImpl playerName).1.state = a.state :=
  (Quiet.quitImpl playerName).state

/-- The entry of the player that quits is `null` afterwards, whatever it was. -/
theorem quitImpl_lookup (playerName name : String) : (a.quitImpl playerName).1.stats.lookup name =
    if name = playerName then (a.stats.lookup name).map fun _ => none else a.stats.lookup name := by
  split
  · rename_i heq
    subst heq
    unfold quitImpl
    split
    · rename_i player hlive
      have hmem : name ∈ a.stats := AList.mem_of_lookup hlive
      dsimp only
      split
      · rw [AList.lookup_replace_self hmem, hlive]
        rfl
      · rw [AList.lookup_replace_self hmem, hlive]
        rfl
    · rename_i hnot
      cases hentry : a.stats.lookup name with
      | none => rfl
      | some entry =>
        cases entry with
        | none => rfl
        | some player => exact absurd hentry (hnot player)
  · rename_i hne
    exact quitImpl_lookup_ne hne

@[simp] theorem quitImpl_keys (playerName : String) : (a.quitImpl playerName).1.stats.keys = a.stats.keys := by
  unfold quitImpl
  split
  · dsimp only
    split
    · exact AList.keys_replace ..
    · exact AList.keys_replace ..
  · rfl

/-- What holds before a round of the task, and is kept where a live entry is marked and where one that has
    been silent for too long is ended, holds after the round. -/
theorem keepAlive_induct {P : SessionActor → Prop} (init : P a)
    (marked : ∀ b name player weak, b.stats.lookup name = some (some player) → P b →
      P { b with stats := b.stats.replace name (some { player with weakConnection := weak }) })
    (timedOut : ∀ b name player, b.stats.lookup name = some (some player) →
      now - player.lastPingTime > keepAliveLimit → P b → P (b.quitImpl name).1) :
    P (a.keepAlive now).1 := by
  unfold keepAlive
  split
  · refine checkConnection_induct (P := fun b _ => P b) init fun b _ name entry hentry hb => ?_
    unfold checkPlayer
    split
    · rename_i player
      split
      · split
        · rename_i hsilent
          exact timedOut b name player hentry hsilent hb
        · exact marked b name player _ hentry hb
      · exact hb
    · exact hb
  · exact init

/-- What a round of the task sends and closes. -/
theorem keepAlive_effects {e : Effect} (he : e ∈ (a.keepAlive now).2) :
    (∃ sessionId, e = .closeSession sessionId) ∨ ∃ address, e = .send (.json (.keepAlive none now)) address := by
  unfold keepAlive at he
  split at he
  · have hcheck : ∀ e ∈ (a.checkConnection now).2, ∃ sessionId, e = .closeSession sessionId := by
      refine checkConnection_induct (P := fun _ effects => ∀ e ∈ effects, ∃ sessionId, e = .closeSession sessionId)
        (List.forall_mem_nil _) fun b effects name entry _ hb => List.forall_mem_append.mpr ⟨hb, fun e he => ?_⟩
      unfold checkPlayer at he
      split at he
      · split at he
        · split at he
          · exact ⟨b.id, quitImpl_effects he⟩
          · cases he
        · cases he
      · cases he
    rcases List.mem_append.mp he with he | he
    · exact Or.inl (hcheck e he)
    · obtain ⟨player, -, heq⟩ := List.mem_map.mp he
      exact Or.inr ⟨player.address, heq.symm⟩
  · cases he

/-! ### What every event keeps -/

theorem Change.id {message : BackendMessage} {a' : SessionActor} (h : a.Change now senderAddress message a') :
    a'.id = a.id := by
  cases h with
  | departed => exact quitImpl_id _
  | _ => rfl

theorem Change.keys {message : BackendMessage} {a' : SessionActor} (h : a.Change now senderAddress message a') :
    a'.stats.keys = a.stats.keys := by
  cases h with
  | nothing => rfl
  | numbered => rfl
  | departed => exact quitImpl_keys _
  | _ => exact AList.keys_replace ..

/-- A property that no change and no round of the task can end. -/
theorem step_keeps {P : SessionActor → Prop} (h : P a) (e : Event)
    (change : ∀ now senderAddress message a', a.stopped = false → a.Change now senderAddress message a' → P a')
    (marked : ∀ b name player weak, b.stats.lookup name = some (some player) → P b →
      P { b with stats := b.stats.replace name (some { player with weakConnection := weak }) })
    (timedOut : ∀ b name, P b → P (b.quitImpl name).1) : P (a.step accepts e) := by
  cases e with
  | receive now senderAddress raw =>
    rcases receive_change accepts a now senderAddress raw with hsame | ⟨hstopped, message, -, hchange⟩
    · unfold step react
      rw [hsame]
      exact h
    · exact change now senderAddress message.extract _ hstopped hchange
  | keepAlive now => exact keepAlive_induct h marked fun b name _ _ _ hb => timedOut b name hb

theorem step_id (accepts : Int → Bool) (a : SessionActor) (e : Event) : (a.step accepts e).id = a.id := by
  refine step_keeps (P := fun b => b.id = a.id) rfl e (fun _ _ _ _ _ h => h.id) (fun _ _ _ _ _ hb => hb) ?_
  intro b name hb
  rw [quitImpl_id]
  exact hb

theorem step_keys (accepts : Int → Bool) (a : SessionActor) (e : Event) :
    (a.step accepts e).stats.keys = a.stats.keys := by
  refine step_keeps (P := fun b => b.stats.keys = a.stats.keys) rfl e (fun _ _ _ _ _ h => h.keys) ?_ ?_
  · intro b name player weak _ hb
    rw [AList.keys_replace]
    exact hb
  · intro b name hb
    rw [quitImpl_keys]
    exact hb

/-- A running session runs on. -/
theorem step_running (h : a.state = .running) (e : Event) : (a.step accepts e).state = .running := by
  refine step_keeps (P := fun b => b.state = .running) h e ?_ (fun _ _ _ _ _ hb => hb) ?_
  · intro now senderAddress message a' _ hchange
    cases hchange with
    | joined waiting => exact absurd (h.symm.trans waiting) (by decide)
    | started => rfl
    | departed => rw [quitImpl_state, h]
    | _ => exact h
  · intro b name hb
    rw [quitImpl_state]
    exact hb

/-! ### A stopped session has no live players -/

/-- A session with a live player has not stopped. -/
theorem StoppedEmpty.not_stopped (h : a.StoppedEmpty) {name : String} {player : PlayerStatistics}
    (hlive : a.stats.lookup name = some (some player)) : a.stopped = false :=
  Bool.eq_false_iff.mpr fun hstop => (h hstop).1 name player hlive

theorem StoppedEmpty.quitImpl (h : a.StoppedEmpty) (playerName : String) :
    (a.quitImpl playerName).1.StoppedEmpty := by
  unfold SessionActor.quitImpl
  split
  · rename_i player hlive
    dsimp only
    split
    · rename_i hall
      refine fun _ => ⟨fun name player' hlookup => ?_, rfl⟩
      have := List.all_eq_true.mp hall _ (AList.mem_values.mpr ⟨name, hlookup⟩)
      cases this
    · intro hstop
      exact absurd hlive ((h hstop).1 playerName player)
  · exact h

theorem StoppedEmpty.checkPlayer (h : a.StoppedEmpty) {now : Int} {name : String} {entry : Option PlayerStatistics}
    (hentry : a.stats.lookup name = some entry) : (checkPlayer now a name entry).1.StoppedEmpty := by
  unfold SessionActor.checkPlayer
  split
  · split
    · split
      · exact h.quitImpl name
      · intro hstop
        exact absurd hentry ((h hstop).1 name _)
    · exact h
  · exact h

theorem StoppedEmpty.step (accepts : Int → Bool) (h : a.StoppedEmpty) (e : Event) :
    (a.step accepts e).StoppedEmpty := by
  refine step_keeps h e ?_ ?_ fun b name hb => hb.quitImpl name
  · intro now senderAddress message a' hstopped hchange
    cases hchange with
    | departed => exact h.quitImpl _
    | _ => exact fun hstop => absurd (hstopped.symm.trans hstop) (by decide)
  · intro b name player weak hlive hb hstop
    exact absurd hlive ((hb hstop).1 name player)

/-- Runs of events lead to the reachable sessions. -/
theorem Reachable.run (h : Reachable accepts a) (events : List Event) :
    Reachable accepts (Machine.run (step accepts) a events) :=
  Machine.run_keeps (fun _ e hb => match e with
    | .receive now senderAddress raw => hb.receive now senderAddress raw
    | .keepAlive now => hb.keepAlive now) h events

theorem Reachable.stoppedEmpty (h : Reachable accepts a) : a.StoppedEmpty := by
  induction h with
  | create id players =>
    intro hstop
    cases hstop
  | receive now senderAddress raw _ ih => exact ih.step accepts (.receive now senderAddress raw)
  | keepAlive now _ ih => exact ih.step accepts (.keepAlive now)

end SessionActor

end MultiSlider
