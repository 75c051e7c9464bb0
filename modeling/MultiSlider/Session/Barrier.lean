import MultiSlider.Session.Nulls

/-! The start of a session. While it waits it collects `Ready`; the `Ready` that leaves no `null` entry starts
    it, and all players are told at the addresses they last got ready from. A running session never waits
    again, and its players only depart. -/

namespace MultiSlider

/-- The address that a `Ready` of the player comes from. -/
def Event.readyAddress (name : String) : Event → Option Address
  | .receive _ senderAddress (.json (.ready playerName)) => if playerName = name then some senderAddress else none
  | _ => none

/-- The address that the last `Ready` of the player came from. -/
def lastReady (events : List Event) (name : String) : Option Address :=
  (events.filterMap (Event.readyAddress name)).getLast?

theorem lastReady_append (events : List Event) (e : Event) (name : String) :
    lastReady (events ++ [e]) name = (e.readyAddress name).or (lastReady events name) := by
  unfold lastReady
  cases hready : e.readyAddress name with
  | none => simp [List.filterMap_append, hready]
  | some address => simp [List.filterMap_append, hready]

namespace SessionActor

/-- A session that waits for `players`, after `events`: a player's entry holds the address of its last `Ready`,
    and is `null` before the first. -/
structure Waits (players : List String) (events : List Event) (a : SessionActor) : Prop where
  state : a.state = .waiting
  stopped : a.stopped = false
  task : a.keepAliveTask = none
  keys : a.stats.keys = players
  entry : ∀ name ∈ players, (a.stats.lookup name).map (Option.map (·.address)) = some (lastReady events name)

/-- Every live player has a sequence state. -/
def Numbered (a : SessionActor) : Prop := ∀ name address, a.LiveAt name address → (a.seqStats name).isSome

variable {accepts : Int → Bool} {a : SessionActor} {players : List String} {events : List Event}

/-! ### Waiting -/

theorem waits_create (id : Nat) (hnodup : players.Nodup) : Waits players [] (create id players) where
  state := rfl
  stopped := rfl
  task := rfl
  keys := by
    simp [create, AList.keys, AList.ofKeys, List.keys, Function.comp_def, List.dedup_eq_self.mpr hnodup]
  entry name hname := by
    simp only [create, AList.lookup_ofKeys, if_pos hname]
    rfl

/-- The addresses in the map, in iteration order. -/
theorem Waits.addresses {b : SessionActor} (hkeys : b.stats.keys = players)
    (hentry : ∀ name ∈ players, (b.stats.lookup name).map (Option.map (·.address)) = some (lastReady events name)) :
    b.stats.values.map (Option.map (·.address)) = players.map (lastReady events) := by
  have hvalues : (b.stats.values.map (Option.map (·.address))).map some =
      (players.map (lastReady events)).map some := by
    calc (b.stats.values.map (Option.map (·.address))).map some
        = (b.stats.values.map some).map (Option.map (Option.map (·.address))) := by simp
      _ = (players.map b.stats.lookup).map (Option.map (Option.map (·.address))) := by
          rw [AList.map_some_values, hkeys]
      _ = (players.map (lastReady events)).map some := by
          simpa using hentry
  exact List.map_injective_iff.mpr (Option.some_injective _) hvalues

/-- `Ready` of a player stores its address, and that of nobody else. -/
theorem Waits.join (h : Waits players events a) (now : Int) (senderAddress : Address) {playerName name : String}
    (hmember : playerName ∈ a.stats) (hname : name ∈ players) :
    ((a.join now senderAddress playerName).stats.lookup name).map (Option.map (·.address)) =
      some (lastReady (events ++ [.receive now senderAddress (.json (.ready playerName))]) name) := by
  rw [lastReady_append]
  unfold SessionActor.join Event.readyAddress
  dsimp only
  by_cases heq : name = playerName
  · subst heq
    rw [AList.lookup_replace_self hmember, if_pos rfl]
    rfl
  · rw [AList.lookup_replace_ne heq, if_neg (Ne.symm heq)]
    exact h.entry name hname

/-- An event that leaves the addresses and the mode as they are, and is no `Ready` of a player waited for. -/
theorem Waits.keep (h : Waits players events a) {e : Event} {b : SessionActor} (hstate : b.state = a.state)
    (hstopped : b.stopped = a.stopped) (htask : b.keepAliveTask = a.keepAliveTask)
    (hkeys : b.stats.keys = a.stats.keys)
    (hsame : ∀ name, (b.stats.lookup name).map (Option.map (·.address)) =
      (a.stats.lookup name).map (Option.map (·.address)))
    (hready : ∀ name ∈ players, e.readyAddress name = none) : Waits players (events ++ [e]) b where
  state := hstate.trans h.state
  stopped := hstopped.trans h.stopped
  task := htask.trans h.task
  keys := hkeys.trans h.keys
  entry name hname := by
    rw [hsame, lastReady_append, hready name hname]
    exact h.entry name hname

/-- A waiting session waits on, or all have got ready and it starts. -/
theorem Waits.step (accepts : Int → Bool) (h : Waits players events a) (e : Event) :
    Waits players (events ++ [e]) (a.step accepts e) ∨
      (a.step accepts e).state = .running ∧ ∃ now senderAddress playerName,
        e = .receive now senderAddress (.json (.ready playerName)) ∧ playerName ∈ a.stats ∧
        (a.join now senderAddress playerName).stats.values.any (·.isNone) = false ∧
        (a.step accepts e).stats = (a.join now senderAddress playerName).stats := by
  cases e with
  | keepAlive now =>
    have hsame : a.step accepts (.keepAlive now) = a := by
      simp [SessionActor.step, react, keepAlive, h.task]
    rw [hsame]
    exact Or.inl (h.keep rfl rfl rfl rfl (fun _ => rfl) fun _ _ => rfl)
  | receive now senderAddress raw =>
    -- A message that changes nothing must not be a `Ready` of a player waited for.
    by_cases hready : ∃ playerName ∈ a.stats, raw = .json (.ready playerName)
    · obtain ⟨playerName, hmember, rfl⟩ := hready
      have hstep : a.step accepts (.receive now senderAddress (.json (.ready playerName))) =
          (a.readyWaiting now senderAddress playerName).actor := by
        refine (receive_actor h.stopped (.ready playerName)).trans ?_
        simp only [handle, h.state]
        rfl
      rw [hstep]
      unfold readyWaiting
      rw [if_pos hmember]
      dsimp only
      split
      · refine Or.inl ⟨h.state, h.stopped, h.task, ?_, fun name hname => h.join now senderAddress hmember hname⟩
        exact (AList.keys_replace ..).trans h.keys
      · rename_i hfull
        exact Or.inr ⟨rfl, now, senderAddress, playerName, rfl, hmember, Bool.eq_false_iff.mpr hfull, rfl⟩
    · have hnone : ∀ name ∈ players, (Event.receive now senderAddress raw).readyAddress name = none := by
        intro name hname
        have hmem : name ∈ a.stats := AList.mem_keys.mpr (h.keys ▸ hname)
        unfold Event.readyAddress
        split
        · rename_i playerName heq
          cases heq
          refine if_neg fun hplayer => hready ⟨playerName, ?_, rfl⟩
          rw [hplayer]
          exact hmem
        · rfl
      rcases receive_change accepts a now senderAddress raw with hsame | ⟨-, message, hraw, hchange⟩
      · have hstep : a.step accepts (.receive now senderAddress raw) = a := hsame
        rw [hstep]
        exact Or.inl (h.keep rfl rfl rfl rfl (fun _ => rfl) hnone)
      · change a.Change now senderAddress message.extract (a.step accepts (.receive now senderAddress raw)) at hchange
        subst hraw
        refine Or.inl ?_
        generalize hb : a.step accepts (.receive now senderAddress (.json message)) = b at hchange ⊢
        generalize hextract : message.extract = extracted at hchange
        cases hchange with
        | nothing => exact h.keep rfl rfl rfl rfl (fun _ => rfl) hnone
        | joined waiting member missing =>
          cases message <;> cases hextract
          exact absurd ⟨_, member, rfl⟩ hready
        | started waiting member full =>
          cases message <;> cases hextract
          exact absurd ⟨_, member, rfl⟩ hready
        | touched live =>
          refine h.keep rfl rfl rfl (AList.keys_replace ..) (fun name => ?_) hnone
          rw [AList.lookup_replace_of_mem (AList.mem_of_lookup live)]
          split
          · rename_i heq
            rw [heq, live]
            rfl
          · rfl
        | updated running => exact absurd (h.state.symm.trans running) (by decide)
        | numbered running => exact absurd (h.state.symm.trans running) (by decide)
        | departed running => exact absurd (h.state.symm.trans running) (by decide)

/-! ### The step that starts the session -/

/-- The loop over a map without `null` serves every entry once, in order. -/
theorem recipients_sendEach {p : Payload → Bool} {payload : Payload} (hp : p payload = true)
    {entries : List (Option PlayerStatistics)} (hfull : none ∉ entries) :
    (recipients p (sendEach payload entries).1).map some = entries.map (Option.map (·.address)) := by
  induction entries with
  | nil => rfl
  | cons entry entries ih =>
    cases entry with
    | none => exact absurd List.mem_cons_self hfull
    | some player =>
      have hrest := ih fun hmem => hfull (List.mem_cons_of_mem _ hmem)
      simpa [sendEach, recipients, hp] using hrest

/-- `Start` is sent only by the step that starts the session. -/
theorem start_sent {e : Event} {address : Address} (h : Effect.send (.json .start) address ∈ (a.react accepts e).2) :
    a.state = .waiting ∧ (a.react accepts e).1.state = .running := by
  cases e with
  | keepAlive now => exact absurd (Quiet.keepAlive.effects _ h) (by simp [Effect.Quiet])
  | receive now senderAddress raw =>
    rcases receive_cases accepts a now senderAddress raw with
      ⟨-, hquiet | ⟨name, -, hjoined⟩⟩ | ⟨-, name, delay, syncId, seqIdx, info, -, htaken⟩
    · exact absurd (hquiet.effects _ h) (by simp [Effect.Quiet])
    · rcases hjoined.effects _ h with hquiet | ⟨hrunning, -⟩
      · exact absurd hquiet (by simp [Effect.Quiet])
      · exact ⟨hjoined.waiting, hrunning⟩
    · change Effect.send (.json .start) address ∈ (a.receive accepts now senderAddress raw).2 at h
      rw [htaken.effects] at h
      split at h
      · simp at h
      · simp at h

/-- The step that starts the session sends one `Start` to each entry, in iteration order. -/
theorem starts_of_full {now : Int} {senderAddress : Address} {playerName : String} (hstate : a.state = .waiting)
    (hstopped : a.stopped = false) (hmember : playerName ∈ a.stats)
    (hfull : (a.join now senderAddress playerName).stats.values.any (·.isNone) = false) :
    (recipients (· = .json .start) (a.receive accepts now senderAddress (.json (.ready playerName))).2).map some =
      (a.join now senderAddress playerName).stats.values.map (Option.map (·.address)) := by
  have hnone : none ∉ (a.join now senderAddress playerName).stats.values := by
    intro hmem
    have hany : (a.join now senderAddress playerName).stats.values.any (·.isNone) = true :=
      List.any_eq_true.mpr ⟨none, hmem, rfl⟩
    rw [hfull] at hany
    cases hany
  have heffects : (a.receive accepts now senderAddress (.json (.ready playerName))).2 =
      (sendEach (.json .start) (a.join now senderAddress playerName).stats.values).1 := by
    have hhandle : a.handle accepts now senderAddress (.json (.ready playerName)) (.ready playerName) =
        ⟨{ a.join now senderAddress playerName with state := .running, keepAliveTask := some true },
          (sendEach (.json .start) (a.join now senderAddress playerName).stats.values).1,
          (sendEach (.json .start) (a.join now senderAddress playerName).stats.values).2⟩ := by
      simp only [handle, hstate, handleWaiting, readyWaiting, if_pos hmember]
      exact if_neg (Bool.eq_false_iff.mp hfull)
    have hraised : (sendEach (.json .start) (a.join now senderAddress playerName).stats.values).2 = false :=
      Bool.eq_false_iff.mpr fun h => hnone (sendEach_raised.mp h)
    simp [receive, hstopped, BackendMessage.extract, hhandle, hraised]
  rw [heffects]
  exact recipients_sendEach (by simp) hnone

/-! ### Running -/

theorem Numbered.step (accepts : Int → Bool) (h : a.Numbered) (e : Event) : (a.step accepts e).Numbered := by
  have ofQuiet : ∀ {b : SessionActor} {effects : List Effect}, a.Quiet b effects → b.Numbered := by
    intro b effects hquiet name address hlive
    rw [hquiet.seqStats]
    exact h name address (hquiet.live name address hlive)
  cases e with
  | keepAlive now => exact ofQuiet Quiet.keepAlive
  | receive now senderAddress raw =>
    rcases receive_cases accepts a now senderAddress raw with
      ⟨-, hquiet | ⟨name, -, hjoined⟩⟩ | ⟨-, name, delay, syncId, seqIdx, info, -, htaken⟩
    · exact ofQuiet hquiet
    · intro name' address hlive
      change ((a.receive accepts now senderAddress raw).1.seqStats name').isSome
      rw [hjoined.seqStats]
      rcases hjoined.live name' address hlive with ⟨rfl, -⟩ | ⟨hne, hlive⟩
      · rw [Function.update_self]
        rfl
      · rw [Function.update_of_ne hne]
        exact h name' address hlive
    · obtain ⟨info', hseq, -⟩ := htaken.seqStats
      intro name' address hlive
      change ((a.receive accepts now senderAddress raw).1.seqStats name').isSome
      rw [hseq]
      by_cases heq : name' = name
      · rw [heq, Function.update_self]
        rfl
      · rw [Function.update_of_ne heq]
        exact h name' address (htaken.live hlive)

/-- In a running session nobody joins. -/
theorem step_live (hrunning : a.state = .running) {e : Event} {name : String} {address : Address}
    (h : (a.step accepts e).LiveAt name address) : a.LiveAt name address := by
  cases e with
  | keepAlive now => exact Quiet.keepAlive.live name address h
  | receive now senderAddress raw =>
    rcases receive_cases accepts a now senderAddress raw with
      ⟨-, hquiet | ⟨name, -, hjoined⟩⟩ | ⟨-, name', delay, syncId, seqIdx, info, -, htaken⟩
    · exact hquiet.live name address h
    · exact absurd (hrunning.symm.trans hjoined.waiting) (by decide)
    · exact htaken.live h

theorem step_null (hrunning : a.state = .running) {name : String} (h : a.stats.lookup name = some none) (e : Event) :
    (a.step accepts e).stats.lookup name = some none := by
  have hmem : name ∈ (a.step accepts e).stats := by
    rw [AList.mem_keys, step_keys, ← AList.mem_keys]
    exact AList.mem_of_lookup h
  obtain ⟨entry, hentry⟩ := AList.exists_lookup hmem
  cases entry with
  | none => exact hentry
  | some player =>
    obtain ⟨player', hlive, -⟩ := step_live hrunning ⟨player, hentry, rfl⟩
    rw [h] at hlive
    cases hlive

/-- The sequence state of a player of a running session changes only through its own `RequestSync`. -/
theorem step_seqStats (hrunning : a.state = .running) {e : Event} {name : String}
    (h : (a.step accepts e).seqStats name ≠ a.seqStats name) :
    ∃ now senderAddress delay syncId seqIdx,
      e = .receive now senderAddress (.json (.requestSync name delay syncId seqIdx)) := by
  cases e with
  | keepAlive now => exact absurd (congrFun Quiet.keepAlive.seqStats name) h
  | receive now senderAddress raw =>
    rcases receive_cases accepts a now senderAddress raw with
      ⟨-, hquiet | ⟨name, -, hjoined⟩⟩ | ⟨-, name', delay, syncId, seqIdx, info, hraw, htaken⟩
    · exact absurd (congrFun hquiet.seqStats name) h
    · exact absurd (hrunning.symm.trans hjoined.waiting) (by decide)
    · obtain ⟨info', hseq, -⟩ := htaken.seqStats
      by_cases heq : name = name'
      · rw [heq]
        exact ⟨now, senderAddress, delay, syncId, seqIdx, congrArg _ hraw⟩
      · refine absurd ?_ h
        change (a.receive accepts now senderAddress raw).1.seqStats name = a.seqStats name
        rw [hseq, Function.update_of_ne heq]

/-! ### Whole runs -/

/-- Along a run a session waits, and holds the last `Ready` of each player, until it runs. -/
theorem waits_or_running (id : Nat) (hnodup : players.Nodup) (events : List Event) :
    Waits players events (Machine.run (step accepts) (create id players) events) ∨
      (Machine.run (step accepts) (create id players) events).state = .running := by
  induction events using List.reverseRecOn with
  | nil => exact Or.inl (waits_create id hnodup)
  | append_singleton events e ih =>
    rw [Machine.run_append]
    rcases ih with hwaits | hrunning
    · rcases hwaits.step accepts e with hwaits | ⟨hrunning, -⟩
      · exact Or.inl hwaits
      · exact Or.inr hrunning
    · exact Or.inr (step_running hrunning e)

/-- Live players have a sequence state all along a run. -/
theorem numbered_run (accepts : Int → Bool) (id : Nat) (players : List String) (events : List Event) :
    (Machine.run (step accepts) (create id players) events).Numbered := by
  refine Machine.run_keeps (fun b e hb => hb.step accepts e) ?_ events
  rintro name address ⟨player, hplayer, -⟩
  simp only [create, AList.lookup_ofKeys] at hplayer
  split at hplayer
  · cases hplayer
  · cases hplayer

/-- The step in which the session starts to run. -/
theorem start_step (accepts : Int → Bool) (id : Nat) (hnodup : players.Nodup) (events : List Event) (e : Event)
    (hwaiting : (Machine.run (step accepts) (create id players) events).state = .waiting)
    (hrunning : ((Machine.run (step accepts) (create id players) events).step accepts e).state = .running) :
    let r := (Machine.run (step accepts) (create id players) events).react accepts e
    (recipients (· = .json .start) r.2).map some = players.map (lastReady (events ++ [e])) ∧ r.1.stats.keys = players ∧
      ∀ name ∈ players, ∃ player info, r.1.stats.lookup name = some (some player) ∧ r.1.seqStats name = some info := by
  intro r
  have hwaits : Waits players events (Machine.run (step accepts) (create id players) events) :=
    (waits_or_running id hnodup events).resolve_right fun hrun => absurd (hwaiting.symm.trans hrun) (by decide)
  obtain hstill | ⟨-, now, senderAddress, playerName, rfl, hmember, hfull, hstats⟩ := hwaits.step accepts e
  · exact absurd (hstill.state.symm.trans hrunning) (by decide)
  · have haddresses := Waits.addresses ((AList.keys_replace ..).trans hwaits.keys)
      fun name hname => hwaits.join now senderAddress hmember hname
    have hkeys := (step_keys accepts _ (.receive now senderAddress (.json (.ready playerName)))).trans hwaits.keys
    refine ⟨(starts_of_full hwaiting hwaits.stopped hmember hfull).trans haddresses, hkeys, fun name hname => ?_⟩
    obtain ⟨entry, hentry⟩ := AList.exists_lookup (AList.mem_keys.mpr (hkeys ▸ hname))
    cases entry with
    | none =>
      rw [hstats] at hentry
      have hnull := List.any_eq_false.mp hfull none (AList.mem_values.mpr ⟨name, hentry⟩)
      exact absurd rfl hnull
    | some player =>
      have hseq := (numbered_run accepts id players events).step accepts _ name player.address ⟨player, hentry, rfl⟩
      obtain ⟨info, hinfo⟩ := Option.isSome_iff_exists.mp hseq
      exact ⟨player, info, hentry, hinfo⟩

/-- The start barrier. In every run of a session of distinct players: `Start` is sent only by the step that turns
    the session from waiting to running; that step sends it once to each player, at the address that its last
    `Ready` came from, and leaves no entry `null` and none without a sequence state. From then on the session
    runs, departed players stay departed, live ones keep a sequence state, and that of a player changes only
    through a `RequestSync` that names it. -/
theorem start_barrier (accepts : Int → Bool) (id : Nat) {players : List String} (hnodup : players.Nodup)
    (events : List Event) (e : Event) :
    let a := Machine.run (step accepts) (create id players) events
    let r := a.react accepts e
    (∀ address, .send (.json .start) address ∈ r.2 → a.state = .waiting ∧ r.1.state = .running) ∧
    (a.state = .waiting → r.1.state = .running →
      (recipients (· = .json .start) r.2).map some = players.map (lastReady (events ++ [e])) ∧
      r.1.stats.keys = players ∧
      ∀ name ∈ players, ∃ player info, r.1.stats.lookup name = some (some player) ∧ r.1.seqStats name = some info) ∧
    (a.state = .running →
      (∀ name, r.1.seqStats name ≠ a.seqStats name → ∃ now senderAddress delay syncId seqIdx,
        e = .receive now senderAddress (.json (.requestSync name delay syncId seqIdx))) ∧
      ∀ later, let b := Machine.run (step accepts) a later
        b.state = .running ∧
        (∀ name, a.stats.lookup name = some none → b.stats.lookup name = some none) ∧
        ∀ name player, b.stats.lookup name = some (some player) → (b.seqStats name).isSome) := by
  intro a r
  refine ⟨fun address h => start_sent h, start_step accepts id hnodup events e,
    fun hrunning => ⟨fun name => step_seqStats hrunning,
    fun later => ⟨?_, fun name hnull => ?_, fun name player hlive => ?_⟩⟩⟩
  · exact Machine.run_keeps (P := fun b : SessionActor => b.state = .running) (fun b e hb => step_running hb e)
      hrunning later
  · have keep : ∀ (b : SessionActor) (e : Event), b.state = .running ∧ b.stats.lookup name = some none →
        (b.step accepts e).state = .running ∧ (b.step accepts e).stats.lookup name = some none :=
      fun b e hb => ⟨step_running hb.1 e, step_null hb.1 hb.2 e⟩
    exact (Machine.run_keeps keep ⟨hrunning, hnull⟩ later).2
  · have hnumbered := numbered_run accepts id players (events ++ later) name player.address
    rw [Machine.run_append] at hnumbered
    exact hnumbered ⟨player, hlive, rfl⟩

/-- The second of two players gets ready, the first for the second time at another address. -/
theorem start_barrier_pair :
    let events := [Event.receive 0 1 (.json (.ready "a")), .receive 5 3 (.json (.ready "a"))]
    let e := Event.receive 7 2 (.json (.ready "b"))
    let a := Machine.run (step fun _ => true) (create 0 ["a", "b"]) events
    a.state = .waiting ∧ (a.react (fun _ => true) e).1.state = .running ∧
      (recipients (· = .json .start) (a.react (fun _ => true) e).2).map some =
        ["a", "b"].map (lastReady (events ++ [e])) ∧
      ["a", "b"].map (lastReady (events ++ [e])) = [some 3, some 2] := by
  refine ⟨by decide +kernel, by decide +kernel, ?_, by decide +kernel⟩
  exact ((start_barrier (fun _ => true) 0 (by decide) _ _).2.1 (by decide +kernel) (by decide +kernel)).1

end SessionActor

end MultiSlider
