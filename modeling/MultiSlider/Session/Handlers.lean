import MultiSlider.Session.Filter

/-! What handling one message can do to a session, as far as the numbering of requests goes. A message
    is handled quietly, lets a player join, or is a reliable request that the filter takes; only the last
    leads to an `Ack` and to a numbered `Sync`. -/

namespace MultiSlider

/-- An effect that sends no `Start`, `Ack` or `Sync` and schedules no numbered `Sync`. -/
def Effect.Quiet : Effect → Prop
  | .send (.json .start) _ => False
  | .send (.json (.ack _)) _ => False
  | .send (.json (.sync _ _)) _ => False
  | .schedule _ _ msgIdx => msgIdx = 1025
  | _ => True

namespace SessionActor

/-- The player is live and reached at `address`. -/
def LiveAt (a : SessionActor) (name : String) (address : Address) : Prop :=
  ∃ player, a.stats.lookup name = some (some player) ∧ player.address = address

instance (a : SessionActor) (name : String) (address : Address) : Decidable (a.LiveAt name address) :=
  decidable_of_iff (∃ entry ∈ a.stats.lookup name, ∃ player ∈ entry, player.address = address) (by simp [LiveAt])

/-- A step that keeps the sequence states and the mode, and lets nobody join. -/
structure Quiet (a a' : SessionActor) (effects : List Effect) : Prop where
  seqStats : a'.seqStats = a.seqStats
  state : a'.state = a.state
  live : ∀ name address, a'.LiveAt name address → a.LiveAt name address
  effects : ∀ e ∈ effects, e.Quiet

/-- The player `name` at `address` joins a waiting session, and all are told to start if it is the last. -/
structure Joined (a : SessionActor) (name : String) (address : Address) (a' : SessionActor)
    (effects : List Effect) : Prop where
  waiting : a.state = .waiting
  state : a'.state = .waiting ∨ a'.state = .running
  seqStats : a'.seqStats = Function.update a.seqStats name (some ⟨1, 0, 0⟩)
  live : ∀ name' address', a'.LiveAt name' address' →
    (name' = name ∧ address' = address) ∨ (name' ≠ name ∧ a.LiveAt name' address')
  effects : ∀ e ∈ effects, e.Quiet ∨
    a'.state = .running ∧ ∃ name' address', a'.LiveAt name' address' ∧ e = .send (.json .start) address'

/-- `checkAcknowlegment` is asked about the request in `raw` and returns true. -/
def takes (a : SessionActor) : Payload → Bool
  | .json message => match message.extract with
    | .requestSync playerName _ _ seqIdx =>
      !a.stopped && a.state = .running && seqIdx < idxWrapModule && (a.checkAcknowlegment seqIdx playerName).isSome
    | _ => false
  | .text _ => false

/-- The request `RequestSync(name, delay, syncId, seqIdx)` passes the filter, which held `info`. -/
structure Taken (accepts : Int → Bool) (a : SessionActor) (address : Address) (name : String)
    (delay syncId seqIdx : Int) (info : MessagesSequenceInfo) (a' : SessionActor) (effects : List Effect) : Prop where
  running : a.state = .running
  found : a.seqStats name = some info
  range : toInt seqIdx < 1024
  passes : (info.checkAcknowlegment (toInt seqIdx)).isSome
  seqStats : ∃ info', a'.seqStats = Function.update a.seqStats name (some info') ∧
    info'.remoteSeqIdx = toInt seqIdx ∧
    info'.localSeqIdx = if info.localSeqIdx < 1023 then info.localSeqIdx + 1 else 0
  state : a'.state = .running
  stopped : a'.stopped = a.stopped
  stats : a'.stats = a.stats
  effects : effects = if accepts (toLong delay) then
    [.schedule (toLong delay) (toInt syncId) info.localSeqIdx, .send (.json (.ack (toInt seqIdx))) address]
    else [.send (.text responseSuck) address]

variable {accepts : Int → Bool} {a a' : SessionActor} {now : Int} {senderAddress : Address}

/-! ### Quiet steps -/

theorem Quiet.refl {effects : List Effect} (h : ∀ e ∈ effects, e.Quiet) : a.Quiet a effects :=
  ⟨rfl, rfl, fun _ _ hlive => hlive, h⟩

theorem Quiet.trans {a'' : SessionActor} {effects effects' : List Effect} (h : a.Quiet a' effects)
    (h' : a'.Quiet a'' effects') : a.Quiet a'' (effects ++ effects') where
  seqStats := h'.seqStats.trans h.seqStats
  state := h'.state.trans h.state
  live name address hlive := h.live name address (h'.live name address hlive)
  effects e he := (List.mem_append.mp he).elim (h.effects e) (h'.effects e)

/-- Storing a live player's entry again, under the same address, lets nobody join. -/
theorem live_of_replace {stats : AList fun _ : String => Option PlayerStatistics} {name : String}
    {player player' : PlayerStatistics} (hlive : a.stats.lookup name = some (some player))
    (haddress : player'.address = player.address) (hstats : stats = a.stats.replace name (some player'))
    {name' : String} {address : Address}
    (h : ∃ p, stats.lookup name' = some (some p) ∧ p.address = address) : a.LiveAt name' address := by
  obtain ⟨p, hp, rfl⟩ := h
  rw [hstats] at hp
  rcases AList.of_lookup_replace hp with ⟨heq, hnew⟩ | ⟨-, hold⟩
  · cases hnew
    exact ⟨player, heq ▸ hlive, haddress.symm⟩
  · exact ⟨p, hold, rfl⟩

theorem Quiet.quitImpl (name : String) : a.Quiet (a.quitImpl name).1 (a.quitImpl name).2 := by
  have live : ∀ name' address,
      (∃ p, (a.stats.replace name none).lookup name' = some (some p) ∧ p.address = address) →
      a.LiveAt name' address := by
    rintro name' address ⟨p, hp, rfl⟩
    rcases AList.of_lookup_replace hp with ⟨-, hnew⟩ | ⟨-, hold⟩
    · cases hnew
    · exact ⟨p, hold, rfl⟩
  unfold SessionActor.quitImpl
  split
  · dsimp only
    split
    · exact ⟨rfl, rfl, live, fun e he => by rw [List.mem_singleton.mp he]; trivial⟩
    · exact ⟨rfl, rfl, live, fun e he => absurd he List.not_mem_nil⟩
  · exact Quiet.refl fun e he => absurd he List.not_mem_nil

theorem Quiet.checkPlayer {name : String} {entry : Option PlayerStatistics}
    (hentry : a.stats.lookup name = some entry) :
    a.Quiet (checkPlayer now a name entry).1 (checkPlayer now a name entry).2 := by
  unfold SessionActor.checkPlayer
  split
  · split
    · split
      · exact Quiet.quitImpl name
      · exact ⟨rfl, rfl, fun _ _ => live_of_replace hentry (by rfl) rfl, fun e he => absurd he List.not_mem_nil⟩
    · exact Quiet.refl fun e he => absurd he List.not_mem_nil
  · exact Quiet.refl fun e he => absurd he List.not_mem_nil

theorem quitImpl_lookup_ne {playerName name : String} (hne : name ≠ playerName) :
    (a.quitImpl playerName).1.stats.lookup name = a.stats.lookup name := by
  unfold quitImpl
  split
  · dsimp only
    split <;> exact AList.lookup_replace_ne hne
  · rfl

theorem checkPlayer_lookup_ne {now : Int} {name name' : String} {entry : Option PlayerStatistics}
    (hne : name' ≠ name) : (checkPlayer now a name entry).1.stats.lookup name' = a.stats.lookup name' := by
  unfold checkPlayer
  split
  · split
    · split
      · exact quitImpl_lookup_ne hne
      · exact AList.lookup_replace_ne hne
    · rfl
  · rfl

/-- What every round of `checkConnection` keeps holds after it. A round finds the entry of its player in
    the map, since a round changes no entry but its own. -/
theorem checkConnection_induct {P : SessionActor → List Effect → Prop} (init : P a [])
    (round : ∀ b effects name entry, b.stats.lookup name = some entry → P b effects →
      P (checkPlayer now b name entry).1 (effects ++ (checkPlayer now b name entry).2)) :
    P (a.checkConnection now).1 (a.checkConnection now).2 := by
  have fold : ∀ (es : List (Sigma fun _ : String => Option PlayerStatistics)) (r : SessionActor × List Effect),
      es.NodupKeys → (∀ e ∈ es, r.1.stats.lookup e.1 = some e.2) → P r.1 r.2 →
      let r' := es.foldl (fun r e =>
        let next := checkPlayer now r.1 e.1 e.2
        (next.1, r.2 ++ next.2)) r
      P r'.1 r'.2 := by
    intro es
    induction es with
    | nil => exact fun r _ _ hr => hr
    | cons e es ih =>
      intro r hnd hmem hr
      obtain ⟨hnew, hnd⟩ := List.nodupKeys_cons.mp hnd
      refine ih _ hnd (fun e' he' => ?_) (round r.1 r.2 e.1 e.2 (hmem e List.mem_cons_self) hr)
      have hne : e'.1 ≠ e.1 := fun heq => hnew (heq ▸ List.mem_keys_of_mem he')
      exact (checkPlayer_lookup_ne hne).trans (hmem e' (List.mem_cons_of_mem e he'))
  exact fold a.stats.entries (a, []) a.stats.nodupKeys (fun e he => AList.lookup_eq_some_iff.mpr he) init

theorem Quiet.keepAlive : a.Quiet (a.keepAlive now).1 (a.keepAlive now).2 := by
  unfold SessionActor.keepAlive
  split
  · have hcheck : a.Quiet (a.checkConnection now).1 (a.checkConnection now).2 :=
      checkConnection_induct (P := fun b effects => a.Quiet b effects)
        (Quiet.refl fun e he => absurd he List.not_mem_nil) fun _ _ _ _ hentry hb => hb.trans (Quiet.checkPlayer hentry)
    refine hcheck.trans (Quiet.refl fun e he => ?_)
    obtain ⟨player, -, rfl⟩ := List.mem_map.mp he
    trivial
  · exact Quiet.refl fun e he => absurd he List.not_mem_nil

theorem mem_sendEach {payload : Payload} {players : List (Option PlayerStatistics)} {e : Effect}
    (he : e ∈ (sendEach payload players).1) : ∃ player, some player ∈ players ∧ e = .send payload player.address := by
  induction players with
  | nil => cases he
  | cons entry players ih =>
    cases entry with
    | none => cases he
    | some player =>
      rcases List.mem_cons.mp he with rfl | he
      · exact ⟨player, List.mem_cons_self, rfl⟩
      · obtain ⟨player', hmem, heq⟩ := ih he
        exact ⟨player', List.mem_cons_of_mem _ hmem, heq⟩

/-! ### The handlers -/

theorem Quiet.touch {playerName : Option String} :
    a.Quiet (a.touch now playerName).actor (a.touch now playerName).effects := by
  unfold SessionActor.touch
  split
  · rename_i player name hlive
    exact ⟨rfl, rfl, fun _ _ => live_of_replace hlive (by rfl) rfl, fun e he => absurd he List.not_mem_nil⟩
  · exact Quiet.refl fun e he => absurd he List.not_mem_nil
  · exact Quiet.refl fun e he => absurd he List.not_mem_nil

theorem Quiet.update {playerName privateData : String} {timestamp : Int} {forceBroadcast : Bool}
    {sharedData : Option String} :
    let outcome := a.update now senderAddress playerName timestamp forceBroadcast privateData sharedData
    a.Quiet outcome.actor outcome.effects := by
  unfold SessionActor.update
  split
  · rename_i player hlive
    split
    · have answered (b : SessionActor) (hseq : b.seqStats = a.seqStats) (hstate : b.state = a.state)
          (hstats : b.stats = a.stats.replace playerName
            (some { player with updateTimestamp := timestamp, privateData, lastPingTime := now })) :
          let outcome : Outcome := if forceBroadcast then
              let sends := sendEach b.sessionState b.stats.values
              ⟨b, sends.1, sends.2⟩
            else b.done [.send b.sessionState senderAddress]
          a.Quiet outcome.actor outcome.effects := by
        cases forceBroadcast with
        | true =>
          refine ⟨hseq, hstate, fun _ _ => live_of_replace hlive (by rfl) hstats, fun e he => ?_⟩
          obtain ⟨player, -, rfl⟩ := mem_sendEach he
          trivial
        | false =>
          refine ⟨hseq, hstate, fun _ _ => live_of_replace hlive (by rfl) hstats, fun e he => ?_⟩
          rw [List.mem_singleton.mp he]
          trivial
      -- The shared register is no part of the statistics of a player.
      cases sharedData with
      | none => exact answered _ rfl rfl rfl
      | some shared =>
        by_cases hshared : shared ≠ "" ∧ a.sharedStats.updateTimestamp < timestamp
        · simp only [if_pos hshared]
          exact answered _ rfl rfl rfl
        · simp only [if_neg hshared]
          exact answered _ rfl rfl rfl
    · exact Quiet.refl fun e he => absurd he List.not_mem_nil
  · exact Quiet.refl fun e he => absurd he List.not_mem_nil

theorem Quiet.quit {playerName : String} :
    a.Quiet (a.quit senderAddress playerName).actor (a.quit senderAddress playerName).effects := by
  refine (Quiet.quitImpl playerName).trans (Quiet.refl fun e he => ?_)
  obtain ⟨player, -, rfl⟩ := List.mem_map.mp he
  trivial

/-- `Ready` is refused, or the player joins. -/
theorem readyWaiting_cases (hwaiting : a.state = .waiting) {playerName : String} :
    let outcome := a.readyWaiting now senderAddress playerName
    a.Quiet outcome.actor outcome.effects ∨ a.Joined playerName senderAddress outcome.actor outcome.effects := by
  have plain (raw : String) : ∀ e ∈ [Effect.send (.text raw) senderAddress], e.Quiet := by
    intro e he
    rw [List.mem_singleton.mp he]
    trivial
  unfold SessionActor.readyWaiting
  split
  · rename_i hmem
    have live : ∀ name' address', (∃ player, (a.stats.replace playerName
        (some ⟨senderAddress, 0, "", now, false⟩)).lookup name' = some (some player) ∧ player.address = address') →
        (name' = playerName ∧ address' = senderAddress) ∨ (name' ≠ playerName ∧ a.LiveAt name' address') := by
      rintro name' address' ⟨player, hplayer, rfl⟩
      rcases AList.of_lookup_replace hplayer with ⟨heq, hnew⟩ | ⟨hne, hold⟩
      · cases hnew
        exact Or.inl ⟨heq, rfl⟩
      · exact Or.inr ⟨hne, player, hold, rfl⟩
    dsimp only
    split
    · exact Or.inr ⟨hwaiting, Or.inl hwaiting, rfl, live, fun e he => Or.inl (plain _ e he)⟩
    · refine Or.inr ⟨hwaiting, Or.inr rfl, rfl, live, fun e he => Or.inr ⟨rfl, ?_⟩⟩
      obtain ⟨player, hplayer, rfl⟩ := mem_sendEach he
      obtain ⟨name', hname'⟩ := AList.mem_values.mp hplayer
      exact ⟨name', player.address, ⟨player, hname', rfl⟩, rfl⟩
  · exact Or.inl (Quiet.refl (plain _))

/-- A request is handled quietly, or the filter takes it. -/
theorem requestSync_cases (accepts : Int → Bool) (senderAddress : Address) (hrunning : a.state = .running)
    {name : String} {delay syncId seqIdx : Int} :
    let outcome := a.requestSync accepts senderAddress name (toLong delay) (toInt syncId) (toInt seqIdx)
    ((decide (toInt seqIdx < idxWrapModule) && (a.checkAcknowlegment (toInt seqIdx) name).isSome) = false ∧
      a.Quiet outcome.actor outcome.effects) ∨
    ((decide (toInt seqIdx < idxWrapModule) && (a.checkAcknowlegment (toInt seqIdx) name).isSome) = true ∧
      ∃ info, a.Taken accepts senderAddress name delay syncId seqIdx info outcome.actor
        (if outcome.raised then outcome.effects ++ [.send (.text responseSuck) senderAddress]
          else outcome.effects)) := by
  unfold SessionActor.requestSync
  by_cases hrange : toInt seqIdx < idxWrapModule
  · simp only [if_pos hrange, decide_eq_true hrange, Bool.true_and]
    cases hcheck : a.checkAcknowlegment (toInt seqIdx) name with
    | none => exact Or.inl ⟨rfl, Quiet.refl fun e he => absurd he List.not_mem_nil⟩
    | some b =>
      unfold SessionActor.checkAcknowlegment at hcheck
      cases hfound : a.seqStats name with
      | none => simp [hfound] at hcheck
      | some info =>
        simp only [hfound] at hcheck
        obtain ⟨info', hinfo', rfl⟩ := Option.map_eq_some_iff.mp hcheck
        obtain ⟨hremote, hlocal⟩ := MessagesSequenceInfo.checkAcknowlegment_some hinfo'
        have hpasses : (info.checkAcknowlegment (toInt seqIdx)).isSome := by rw [hinfo']; rfl
        -- `checkAcknowlegment` stores the index, and the next own one is stored in the same entry.
        have hstored : ∃ info'', Function.update (Function.update a.seqStats name (some info')) name
            (some (nextLocal info')) = Function.update a.seqStats name (some info'') ∧
            info''.remoteSeqIdx = toInt seqIdx ∧
            info''.localSeqIdx = if info.localSeqIdx < 1023 then info.localSeqIdx + 1 else 0 :=
          ⟨nextLocal info', Function.update_idem _ _ _, hremote, by simp only [nextLocal, hlocal]; rfl⟩
        simp only [Function.update_self]
        -- That has happened whether the scheduler takes the delay or not.
        cases haccepts : accepts (toLong delay) with
        | true =>
          refine Or.inr ⟨rfl, info, hrunning, hfound, hrange, hpasses, hstored, hrunning, rfl, rfl, ?_⟩
          simp [haccepts, done, hlocal]
        | false =>
          refine Or.inr ⟨rfl, info, hrunning, hfound, hrange, hpasses, hstored, hrunning, rfl, rfl, ?_⟩
          simp [haccepts, raise]
  · simp only [if_neg hrange, decide_eq_false hrange, Bool.false_and]
    refine Or.inl ⟨trivial, ?_⟩
    -- Without a number the request does not come to the filter.
    split
    · refine Quiet.refl fun e he => ?_
      rw [List.mem_singleton.mp he]
      rfl
    · exact Quiet.refl fun e he => absurd he List.not_mem_nil

/-- What `receive` does with the outcome of a handler. -/
def answer (senderAddress : Address) (outcome : Outcome) : SessionActor × List Effect :=
  if outcome.raised then (outcome.actor, outcome.effects ++ [.send (.text responseSuck) senderAddress])
  else (outcome.actor, outcome.effects)

theorem Quiet.answer {outcome : Outcome} (h : a.Quiet outcome.actor outcome.effects) :
    a.Quiet (answer senderAddress outcome).1 (answer senderAddress outcome).2 := by
  unfold SessionActor.answer
  split
  · refine h.trans (Quiet.refl fun e he => ?_)
    rw [List.mem_singleton.mp he]
    trivial
  · exact h

theorem Joined.answer {outcome : Outcome} {name : String}
    (h : a.Joined name senderAddress outcome.actor outcome.effects) :
    a.Joined name senderAddress (answer senderAddress outcome).1 (answer senderAddress outcome).2 := by
  unfold SessionActor.answer
  split
  · refine ⟨h.waiting, h.state, h.seqStats, h.live, fun e he => ?_⟩
    rcases List.mem_append.mp he with he | he
    · exact h.effects e he
    · rw [List.mem_singleton.mp he]
      exact Or.inl trivial
  · exact h

theorem Quiet.handle {raw : Payload} {message : BackendMessage} (hraw : raw = .json message)
    (hready : ∀ name, a.state = .waiting → message ≠ .ready name)
    (hrequest : ∀ name delay syncId seqIdx, a.state = .running → message ≠ .requestSync name delay syncId seqIdx) :
    let outcome := a.handle accepts now senderAddress raw message.extract
    a.Quiet outcome.actor outcome.effects := by
  have nothing : a.Quiet (a.done []).actor (a.done []).effects :=
    Quiet.refl fun e he => absurd he List.not_mem_nil
  unfold SessionActor.handle
  cases hstate : a.state with
  | waiting =>
    cases message with
    | ready name => exact absurd rfl (hready name hstate)
    | keepAlive playerName timestamp => exact Quiet.touch
    | _ => exact nothing
  | running =>
    cases message with
    | update playerName timestamp forceBroadcast data sharedData => exact Quiet.update
    | message sender data =>
      refine Quiet.refl fun e he => ?_
      obtain ⟨player, -, rfl⟩ := mem_sendEach he
      rw [hraw]
      trivial
    | keepAlive playerName timestamp => exact Quiet.touch
    | requestSync name delay syncId seqIdx => exact absurd rfl (hrequest name delay syncId seqIdx hstate)
    | clockSync id requestTime responseTime =>
      refine Quiet.refl fun e he => ?_
      rw [List.mem_singleton.mp he]
      trivial
    | quit playerName => exact Quiet.quit
    | _ => exact nothing
  | zombie => exact nothing

/-- The three ways in which a message is handled. -/
theorem receive_cases (accepts : Int → Bool) (a : SessionActor) (now : Int) (senderAddress : Address) (raw : Payload) :
    let r := a.receive accepts now senderAddress raw
    (a.takes raw = false ∧ (a.Quiet r.1 r.2 ∨
      ∃ name, raw = .json (.ready name) ∧ a.Joined name senderAddress r.1 r.2)) ∨
    (a.takes raw = true ∧ ∃ name delay syncId seqIdx info, raw = .json (.requestSync name delay syncId seqIdx) ∧
      a.Taken accepts senderAddress name delay syncId seqIdx info r.1 r.2) := by
  cases raw with
  | text raw =>
    refine Or.inl ⟨rfl, Or.inl ?_⟩
    unfold receive
    split
    · exact Quiet.refl fun e he => absurd he List.not_mem_nil
    · have hraise : a.Quiet (a.raise []).actor (a.raise []).effects := Quiet.refl fun e he => absurd he List.not_mem_nil
      exact hraise.answer
  | json message =>
    cases hstopped : a.stopped with
    | true =>
      have hreceive : a.receive accepts now senderAddress (.json message) = (a, []) := if_pos hstopped
      simp only [hreceive]
      refine Or.inl ⟨?_, Or.inl (Quiet.refl fun e he => absurd he List.not_mem_nil)⟩
      unfold takes
      dsimp only
      split
      · simp [hstopped]
      · rfl
    | false =>
      have hreceive : a.receive accepts now senderAddress (.json message) =
          answer senderAddress (a.handle accepts now senderAddress (.json message) message.extract) :=
        if_neg (by simp [hstopped])
      simp only [hreceive]
      -- `Ready` is the one message that can let a player join, a numbered request the one that the filter can take.
      by_cases hready : a.state = .waiting ∧ ∃ name, message = .ready name
      · obtain ⟨hstate, name, rfl⟩ := hready
        refine Or.inl ⟨rfl, ?_⟩
        simp only [handle, hstate]
        rcases readyWaiting_cases hstate with hquiet | hjoined
        · exact Or.inl hquiet.answer
        · exact Or.inr ⟨name, rfl, hjoined.answer⟩
      · by_cases hrequest : a.state = .running ∧ ∃ name delay syncId seqIdx,
            message = .requestSync name delay syncId seqIdx
        · obtain ⟨hstate, name, delay, syncId, seqIdx, rfl⟩ := hrequest
          have htakes : a.takes (.json (.requestSync name delay syncId seqIdx)) =
              (decide (toInt seqIdx < idxWrapModule) && (a.checkAcknowlegment (toInt seqIdx) name).isSome) := by
            simp [takes, BackendMessage.extract, hstopped, hstate]
          simp only [htakes, handle, hstate]
          rcases requestSync_cases accepts senderAddress hstate with
            ⟨hno, hquiet⟩ | ⟨hyes, info, htaken⟩
          · exact Or.inl ⟨hno, Or.inl hquiet.answer⟩
          · refine Or.inr ⟨hyes, name, delay, syncId, seqIdx, info, rfl, ?_⟩
            unfold answer
            split <;> simp_all [handleRunning, BackendMessage.extract]
        -- All other messages leave the numbers alone.
        · refine Or.inl ⟨?_, Or.inl (Quiet.handle rfl ?_ ?_).answer⟩
          · unfold takes
            cases message with
            | requestSync name delay syncId seqIdx =>
              have hstate : a.state ≠ .running := fun h => hrequest ⟨h, name, delay, syncId, seqIdx, rfl⟩
              simp [BackendMessage.extract, hstate]
            | _ => rfl
          · exact fun name h heq => hready ⟨h, name, heq⟩
          · exact fun name delay syncId seqIdx h heq => hrequest ⟨h, name, delay, syncId, seqIdx, heq⟩

/-- The filter takes the indices ahead of the one it stores. -/
theorem takes_requestSync_iff {name : String} (hidx : ∀ info, a.seqStats name = some info → IsIdx info.remoteSeqIdx)
    (delay syncId : Int) {n : Nat} (hn : n < 1024) : a.takes (.json (.requestSync name delay syncId n)) = true ↔
      a.stopped = false ∧ a.state = .running ∧ ∃ info, a.seqStats name = some info ∧ AheadIdx info.remoteSeqIdx n := by
  have hrange : (n : Int) < idxWrapModule := by
    unfold idxWrapModule
    omega
  simp only [takes, BackendMessage.extract, toInt_idx hn, hrange, decide_true, Bool.and_true, Bool.and_eq_true,
    Bool.not_eq_true', decide_eq_true_eq, checkAcknowlegment, and_assoc]
  refine and_congr_right fun _ => and_congr_right fun _ => ?_
  cases hinfo : a.seqStats name with
  | none => simp
  | some info =>
    rw [Option.isSome_map, MessagesSequenceInfo.checkAcknowlegment_isSome (hidx info hinfo) ⟨by omega, by omega⟩]
    simp

/-- A numbered request that the filter does not take is dropped. -/
theorem receive_refused {name : String} {delay syncId seqIdx : Int} (hrange : toInt seqIdx < idxWrapModule)
    (h : a.takes (.json (.requestSync name delay syncId seqIdx)) = false) :
    a.receive accepts now senderAddress (.json (.requestSync name delay syncId seqIdx)) = (a, []) := by
  unfold receive
  split
  · rfl
  · rename_i hstopped
    cases hstate : a.state with
    | running =>
      have hcheck : a.checkAcknowlegment (toInt seqIdx) name = none := by
        simpa [takes, BackendMessage.extract, hstopped, hstate, hrange] using h
      simp [handle, hstate, BackendMessage.extract, handleRunning, requestSync, hrange, hcheck, done]
    | _ => simp [handle, hstate, BackendMessage.extract, handleWaiting, done]

/-- A request that the filter takes changes no entry of a player. -/
theorem Taken.live {name name' : String} {address : Address} {delay syncId seqIdx : Int} {info : MessagesSequenceInfo}
    {effects : List Effect} (h : a.Taken accepts senderAddress name delay syncId seqIdx info a' effects)
    (hlive : a'.LiveAt name' address) : a.LiveAt name' address := by
  unfold LiveAt at hlive
  rwa [h.stats] at hlive

variable (accepts now senderAddress) in
/-- A request that the filter takes. -/
theorem receive_taken {name : String} {delay syncId seqIdx : Int}
    (h : a.takes (.json (.requestSync name delay syncId seqIdx)) = true) :
    let r := a.receive accepts now senderAddress (.json (.requestSync name delay syncId seqIdx))
    ∃ info, a.Taken accepts senderAddress name delay syncId seqIdx info r.1 r.2 := by
  rcases receive_cases accepts a now senderAddress (.json (.requestSync name delay syncId seqIdx)) with
    ⟨hno, -⟩ | ⟨-, name', delay', syncId', seqIdx', info, hraw, htaken⟩
  · cases hno.symm.trans h
  · cases hraw
    exact ⟨info, htaken⟩

variable (accepts now senderAddress) in
/-- What the filter does not take is handled quietly, or is the `Ready` of a player who joins. -/
theorem receive_untaken {raw : Payload} (h : a.takes raw = false) :
    let r := a.receive accepts now senderAddress raw
    a.Quiet r.1 r.2 ∨ ∃ name, raw = .json (.ready name) ∧ a.Joined name senderAddress r.1 r.2 := by
  rcases receive_cases accepts a now senderAddress raw with ⟨-, hcases⟩ | ⟨hyes, -⟩
  · exact hcases
  · cases h.symm.trans hyes

end SessionActor

end MultiSlider
