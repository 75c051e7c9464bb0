import MultiSlider.Session.Barrier
import MultiSlider.Session.Slots

/-! What becomes of a session that its players have left. While it runs it takes `Quit`, and its keep-alive task
    ends the players it has not heard of; with the last of them it closes itself. While it waits it does neither:
    a session that has not started keeps its id for ever. -/

namespace MultiSlider

/-- The message counts as a sign of life of the player. -/
def BackendMessage.signs (name : String) : BackendMessage → Bool
  | .ready playerName | .update playerName _ _ _ _ | .keepAlive (some playerName) _ => playerName = name
  | _ => false

/-- The event is a sign of life of the player. -/
def Event.signs (name : String) : Event → Bool
  | .receive _ _ (.json message) => message.extract.signs name
  | _ => false

/-- When the actor handles the event. -/
def Event.time : Event → Int
  | .receive now _ _ => now
  | .keepAlive now => now

/-- The event is a `Quit` of the player. -/
def Event.quits (name : String) : Event → Bool
  | .receive _ _ (.json (.quit playerName)) => playerName = name
  | _ => false

namespace SessionActor

/-- The player has joined and not departed. -/
def Live (a : SessionActor) (name : String) (player : PlayerStatistics) : Prop :=
  a.stats.lookup name = some (some player)

/-- The task is active exactly while the session runs; a session that runs without a player has stopped, and no
    other has. -/
structure Tended (a : SessionActor) : Prop where
  task : a.keepAliveTask = some true ↔ a.state = .running ∧ a.stopped = false
  stops : a.stopped = true → a.state = .running
  ended : a.state = .running → (∀ name player, ¬a.Live name player) → a.stopped = true

variable {accepts : Int → Bool} {a : SessionActor} {now : Int} {senderAddress : Address} {name : String}
  {player : PlayerStatistics}

variable (accepts) in
/-- A round of the task does nothing before the task is created, and after it is cancelled. -/
theorem step_keepAlive_of_idle (htask : a.keepAliveTask ≠ some true) : a.step accepts (.keepAlive now) = a := by
  change (a.keepAlive now).1 = a
  unfold keepAlive
  rw [if_neg htask]

/-! ### Who is live after an event -/

theorem live_replace {playerName : String} {entry : Option PlayerStatistics}
    (h : (a.stats.replace playerName entry).lookup name = some (some player)) :
    (name = playerName ∧ entry = some player) ∨ (name ≠ playerName ∧ a.Live name player) := by
  exact AList.of_lookup_replace h

/-- A player that is live after a message was live before, with the same time of its last sign of life, or the
    message is a sign of life. Nobody joins a session that runs. -/
theorem Change.live {message : BackendMessage} {a' : SessionActor} (h : a.Change now senderAddress message a')
    (hlive : a'.Live name player) :
    (∃ before, a.Live name before ∧ player.lastPingTime = before.lastPingTime) ∨
      player.lastPingTime = now ∧ message.signs name = true ∧ (a.state = .waiting ∨ ∃ before, a.Live name before) := by
  -- A player who joins has an entry of this moment; the others keep theirs.
  have joined {playerName : String} (waiting : a.state = .waiting)
      (hlive : (a.join now senderAddress playerName).Live name player) :
      (∃ before, a.Live name before ∧ player.lastPingTime = before.lastPingTime) ∨
        player.lastPingTime = now ∧ (BackendMessage.ready playerName).signs name = true ∧
          (a.state = .waiting ∨ ∃ before, a.Live name before) := by
    rcases live_replace hlive with ⟨rfl, heq⟩ | ⟨-, hlive⟩
    · cases heq
      exact Or.inr ⟨rfl, by simp [BackendMessage.signs], Or.inl waiting⟩
    · exact Or.inl ⟨player, hlive, rfl⟩
  cases h with
  | nothing => exact Or.inl ⟨player, hlive, rfl⟩
  | joined waiting => exact joined waiting hlive
  | started waiting => exact joined waiting hlive
  | touched live =>
    rcases live_replace hlive with ⟨rfl, heq⟩ | ⟨-, hlive⟩
    · cases heq
      exact Or.inr ⟨rfl, by simp [BackendMessage.signs], Or.inr ⟨_, live⟩⟩
    · exact Or.inl ⟨player, hlive, rfl⟩
  | updated running live newer =>
    rcases live_replace hlive with ⟨rfl, heq⟩ | ⟨-, hlive⟩
    · cases heq
      exact Or.inr ⟨rfl, by simp [BackendMessage.signs], Or.inr ⟨_, live⟩⟩
    · exact Or.inl ⟨player, hlive, rfl⟩
  | numbered => exact Or.inl ⟨player, hlive, rfl⟩
  | departed =>
    unfold Live at hlive
    rw [quitImpl_lookup] at hlive
    split at hlive
    -- The entry of the player who has left is null.
    · simp at hlive
    · exact Or.inl ⟨player, hlive, rfl⟩

/-- Each entry has one round of the task, which finds it as it was. -/
theorem checkConnection_round (now : Int) {entry : Option PlayerStatistics} (h : a.stats.lookup name = some entry) :
    ∃ b : SessionActor, b.stats.lookup name = some entry ∧
      (a.checkConnection now).1.stats.lookup name = (checkPlayer now b name entry).1.stats.lookup name := by
  let round (r : SessionActor × List Effect) (e : Sigma fun _ : String => Option PlayerStatistics) :=
    ((checkPlayer now r.1 e.1 e.2).1, r.2 ++ (checkPlayer now r.1 e.1 e.2).2)
  have others : ∀ (es : List (Sigma fun _ : String => Option PlayerStatistics)) (r : SessionActor × List Effect),
      name ∉ es.keys → (es.foldl round r).1.stats.lookup name = r.1.stats.lookup name := by
    intro es
    induction es with
    | nil => exact fun r _ => rfl
    | cons e es ih =>
      intro r hname
      rw [List.keys_cons, List.mem_cons, not_or] at hname
      exact (ih _ hname.2).trans (checkPlayer_lookup_ne hname.1)
  obtain ⟨before, after, heq⟩ := List.append_of_mem (AList.lookup_eq_some_iff.mp h)
  have hnodup : (before ++ ⟨name, entry⟩ :: after).NodupKeys := heq ▸ a.stats.nodupKeys
  have honce : name ∉ before.keys ++ after.keys := by
    refine (List.nodup_cons.mp (List.nodup_middle.mp ?_)).1
    simpa [List.NodupKeys, List.keys] using hnodup
  rw [List.mem_append, not_or] at honce
  refine ⟨(before.foldl round (a, [])).1, (others before (a, []) honce.1).trans h, ?_⟩
  change (a.stats.entries.foldl round (a, [])).1.stats.lookup name = _
  rw [heq, List.foldl_append, List.foldl_cons]
  exact others after _ honce.2

/-- A player that is live after a round of the task was live before, and not silent for too long. -/
theorem keepAlive_live (htask : a.keepAliveTask = some true) (hlive : (a.keepAlive now).1.Live name player) :
    ∃ before, a.Live name before ∧ player.lastPingTime = before.lastPingTime ∧
      now - player.lastPingTime ≤ keepAliveLimit := by
  have hmem : name ∈ a.stats := by
    rw [AList.mem_keys, ← step_keys (fun _ => true) a (.keepAlive now), ← AList.mem_keys]
    exact AList.mem_of_lookup hlive
  unfold keepAlive at hlive
  rw [if_pos htask] at hlive
  obtain ⟨entry, hentry⟩ := AList.exists_lookup hmem
  -- The round looks at each entry once, in the state that the rounds for the others have left.
  obtain ⟨b, hb, hround⟩ := checkConnection_round now hentry
  unfold Live at hlive
  dsimp only at hlive
  rw [hround] at hlive
  unfold checkPlayer at hlive
  split at hlive
  · rename_i before
    split at hlive
    · split at hlive
      · rw [quitImpl_lookup] at hlive
        simp at hlive
      · rename_i hnew hshort
        rw [AList.lookup_replace_self (AList.mem_of_lookup hb)] at hlive
        cases hlive
        exact ⟨before, hentry, rfl, not_lt.mp hshort⟩
    -- A player with a recent sign of life is not looked at further.
    · rename_i hold
      obtain rfl : before = player := Option.some.inj (Option.some.inj (hb.symm.trans hlive))
      refine ⟨before, hentry, rfl, ?_⟩
      have hlimit : (0 : Int) ≤ keepAliveLimit := by decide
      omega
  · rw [hb] at hlive
    cases hlive

theorem Tended.create (id : Nat) (players : List String) : (create id players).Tended where
  task := by simp [SessionActor.create]
  stops hstop := by cases hstop
  ended hrunning := by cases hrunning

theorem Tended.quitImpl (h : a.Tended) (hrunning : a.state = .running) (playerName : String) :
    (a.quitImpl playerName).1.Tended := by
  unfold SessionActor.quitImpl
  split
  · dsimp only
    split
    · exact ⟨by simp, fun _ => hrunning, fun _ _ => rfl⟩
    · rename_i hnot
      refine ⟨h.task, h.stops, fun _ hnobody => absurd ?_ hnot⟩
      refine List.all_eq_true.mpr fun entry hentry => ?_
      obtain ⟨name, hname⟩ := AList.mem_values.mp hentry
      cases entry with
      | none => rfl
      | some player => exact absurd hname (hnobody name player)
  · exact h

/-- A session with a live player. -/
theorem Tended.of_live {b : SessionActor} (h : a.Tended) (htask : b.keepAliveTask = a.keepAliveTask)
    (hstate : b.state = a.state) (hstopped : b.stopped = a.stopped) (hlive : b.Live name player) : b.Tended := by
  refine ⟨?_, ?_, fun _ hnobody => absurd hlive (hnobody name player)⟩
  · rw [htask, hstate, hstopped]
    exact h.task
  · rw [hstate, hstopped]
    exact h.stops

theorem Tended.change (h : a.Tended) (hstopped : a.stopped = false) {message : BackendMessage} {a' : SessionActor}
    (hchange : a.Change now senderAddress message a') : a'.Tended := by
  cases hchange with
  | nothing => exact h
  | joined waiting => exact ⟨h.task, h.stops, fun hrunning => absurd (waiting.symm.trans hrunning) (by decide)⟩
  | started waiting member full =>
    refine ⟨by simp [hstopped, join], fun _ => rfl, fun _ hnobody => ?_⟩
    exact absurd (AList.lookup_replace_self member) (hnobody _ _)
  | touched live => exact h.of_live rfl rfl rfl (AList.lookup_replace_self (AList.mem_of_lookup live))
  | updated running live newer =>
    exact h.of_live rfl rfl rfl (AList.lookup_replace_self (AList.mem_of_lookup live))
  | numbered => exact ⟨h.task, h.stops, h.ended⟩
  | departed running => exact h.quitImpl running _

theorem Tended.step (h : a.Tended) (accepts : Int → Bool) (e : Event) : (a.step accepts e).Tended := by
  cases e with
  | receive now senderAddress raw =>
    rcases receive_change accepts a now senderAddress raw with hsame | ⟨hstopped, message, -, hchange⟩
    · unfold SessionActor.step react
      rw [hsame]
      exact h
    · exact h.change hstopped hchange
  | keepAlive now =>
    by_cases htask : a.keepAliveTask = some true
    · -- The rounds of the task are those of a session that runs.
      refine (keepAlive_induct (P := fun b => b.Tended ∧ b.state = .running) ⟨h, (h.task.mp htask).1⟩ ?_ ?_).1
      · rintro b name player weak hlive ⟨hb, hrunning⟩
        exact ⟨hb.of_live rfl rfl rfl (AList.lookup_replace_self (AList.mem_of_lookup hlive)), hrunning⟩
      · rintro b name player - - ⟨hb, hrunning⟩
        exact ⟨hb.quitImpl hrunning name, (quitImpl_state name).trans hrunning⟩
    · rw [step_keepAlive_of_idle _ htask]
      exact h

/-- In a session that runs nobody joins. -/
theorem live_of_step (hrunning : a.state = .running) {e : Event} (hlive : (a.step accepts e).Live name player) :
    ∃ before, a.Live name before := by
  obtain ⟨before, hbefore, -⟩ := step_live hrunning ⟨player, hlive, rfl⟩
  exact ⟨before, hbefore⟩

theorem step_state (e : Event) (hrunning : (a.step accepts e).state = .running) : a.state = .running ∨
    a.state = .waiting := by
  cases hstate : a.state with
  | running => exact Or.inl rfl
  | waiting => exact Or.inr rfl
  | zombie =>
    have hzombie : (a.step accepts e).state = .zombie := by
      refine step_keeps (P := fun b => b.state = .zombie) hstate e ?_ (fun _ _ _ _ _ hb => hb) fun b name hb => ?_
      · intro now senderAddress message a' _ hchange
        cases hchange with
        | joined waiting => exact absurd (hstate.symm.trans waiting) (by decide)
        | started waiting => exact absurd (hstate.symm.trans waiting) (by decide)
        | departed running => exact absurd (hstate.symm.trans running) (by decide)
        | _ => exact hstate
      · rw [quitImpl_state]
        exact hb
    exact absurd (hzombie.symm.trans hrunning) (by decide)

/-- The task of a session that does not start in the step was active before. -/
theorem task_of_step (h : a.Tended) (hempty : a.StoppedEmpty) {e : Event}
    (hstarts : ¬(a.state = .waiting ∧ (a.step accepts e).state = .running))
    (htask : (a.step accepts e).keepAliveTask = some true) : a.keepAliveTask = some true := by
  obtain ⟨hrunning, hstopped⟩ := (h.step accepts e).task.mp htask
  refine h.task.mpr ⟨(step_state e hrunning).resolve_right fun hwaiting => hstarts ⟨hwaiting, hrunning⟩, ?_⟩
  exact Bool.eq_false_iff.mpr fun hstop => absurd (hstopped.symm.trans (step_stopped hempty hstop e)) (by decide)

variable (accepts) in
/-- Who is live after an event, and since when it has been silent. -/
theorem step_live_time {e : Event} (hlive : (a.step accepts e).Live name player) :
    (∃ before, a.Live name before ∧ player.lastPingTime = before.lastPingTime) ∨
      player.lastPingTime = e.time ∧ e.signs name = true := by
  cases e with
  | receive now senderAddress raw =>
    rcases receive_change accepts a now senderAddress raw with hsame | ⟨-, message, rfl, hchange⟩
    · rw [step, react, hsame] at hlive
      exact Or.inl ⟨player, hlive, rfl⟩
    · rcases hchange.live hlive with hbefore | ⟨htime, hsigns, -⟩
      · exact Or.inl hbefore
      · exact Or.inr ⟨htime, hsigns⟩
  | keepAlive now =>
    by_cases htask : a.keepAliveTask = some true
    · obtain ⟨before, hbefore, htime, -⟩ := keepAlive_live htask hlive
      exact Or.inl ⟨before, hbefore, htime⟩
    · rw [step_keepAlive_of_idle _ htask] at hlive
      exact Or.inl ⟨player, hlive, rfl⟩

/-- Who quits a running session is not live any more. -/
theorem not_live_of_quits (hempty : a.StoppedEmpty) (hrunning : a.state = .running) {e : Event}
    (hquits : e.quits name = true) : ¬(a.step accepts e).Live name player := by
  intro hlive
  unfold Event.quits at hquits
  split at hquits
  · rename_i now senderAddress playerName
    obtain rfl : playerName = name := of_decide_eq_true hquits
    cases hstopped : a.stopped with
    | true =>
      unfold step at hlive
      rw [react_of_stopped hempty hstopped] at hlive
      exact (hempty hstopped).1 playerName player hlive
    | false =>
      unfold Live step at hlive
      rw [react_quit accepts now senderAddress hstopped hrunning, quitImpl_lookup, if_pos rfl] at hlive
      simp at hlive
  · cases hquits

end SessionActor

namespace Instance

/-- The session has handled a `Quit` of the player, while it was in the mode. -/
def Quit (inst : Instance) (mode : SessionState) (name : String) : Prop :=
  ∃ e, (mode, e) ∈ inst.handled ∧ e.quits name = true

/-- No sign of life of the player was handled for longer than the limit and an interval. -/
def Silent (inst : Instance) (clock : Int) (name : String) : Prop :=
  ∀ p ∈ inst.handled, p.2.signs name = true → p.2.time + keepAliveLimit + keepAliveInterval < clock

/-- What the times of a session are at `clock`. A task that has run already has ended the players who were silent
    for too long at its last run. -/
structure Timely (clock : Int) (inst : Instance) : Prop where
  tended : inst.actor.Tended
  listed : ∀ name ∈ inst.actor.stats.keys, name ∈ inst.players
  heard : ∀ name player, inst.actor.Live name player →
    ∃ p ∈ inst.handled, p.2.signs name = true ∧ p.2.time = player.lastPingTime
  due : inst.actor.keepAliveTask = some true → clock ≤ inst.due ∧ inst.due ≤ clock + keepAliveInterval
  checked : inst.actor.keepAliveTask = some true → inst.due = inst.startedAt + keepAliveInterval ∨
    ∀ name player, inst.actor.Live name player → inst.due - keepAliveInterval - keepAliveLimit ≤ player.lastPingTime
  quit : ∀ name, inst.Quit .running name → inst.actor.state = .running ∧ ∀ player, ¬inst.actor.Live name player

variable {inst : Instance} {clock : Int} {accepts : Int → Bool}

theorem Timely.create (clock : Int) (id : Nat) (players : List String) : (create id players).Timely clock where
  tended := .create id players
  listed name hname := by
    simpa [Instance.create, SessionActor.create, AList.keys, AList.ofKeys, List.keys] using hname
  heard name player hlive := by
    unfold SessionActor.Live Instance.create SessionActor.create at hlive
    rw [AList.lookup_ofKeys] at hlive
    split at hlive
    · cases hlive
    · cases hlive
  due htask := by cases htask
  checked htask := by cases htask
  quit name hquit := by
    obtain ⟨e, he, -⟩ := hquit
    cases he

theorem Timely.mail (h : inst.Timely clock) (mailbox : List SignedEnvelop) : Timely clock { inst with mailbox } :=
  ⟨h.tended, h.listed, h.heard, h.due, h.checked, h.quit⟩

/-- When the task runs next: it starts with the session, or it has run, or neither. -/
theorem react_due (accepts : Int → Bool) (inst : Instance) (clock : Int) (e : Event) :
    ((inst.actor.state = .waiting ∧ (inst.actor.step accepts e).state = .running) ∧
      (inst.react accepts clock e).1.due = clock + keepAliveInterval ∧
      (inst.react accepts clock e).1.startedAt = clock) ∨
    ¬(inst.actor.state = .waiting ∧ (inst.actor.step accepts e).state = .running) ∧
      (inst.react accepts clock e).1.startedAt = inst.startedAt ∧
      ((∃ now, e = .keepAlive now ∧ inst.actor.keepAliveTask = some true ∧
          (inst.react accepts clock e).1.due = inst.due + keepAliveInterval) ∨
        (∀ now, e = .keepAlive now → inst.actor.keepAliveTask ≠ some true) ∧
          (inst.react accepts clock e).1.due = inst.due) := by
  by_cases hstarts : inst.actor.state = .waiting ∧ (inst.actor.step accepts e).state = .running
  · refine Or.inl ⟨hstarts, ?_, ?_⟩
    · exact if_pos (decide_eq_true hstarts)
    · exact if_pos (decide_eq_true hstarts)
  · have hnot : ¬decide (inst.actor.state = .waiting ∧ (inst.actor.step accepts e).state = .running) = true :=
      fun h => hstarts (of_decide_eq_true h)
    refine Or.inr ⟨hstarts, if_neg hnot, ?_⟩
    cases e with
    | receive now senderAddress raw => exact Or.inr ⟨fun _ heq => (by cases heq), if_neg hnot⟩
    | keepAlive now =>
      by_cases htask : inst.actor.keepAliveTask = some true
      · exact Or.inl ⟨now, rfl, htask, (if_neg hnot).trans (if_pos (decide_eq_true htask))⟩
      · exact Or.inr ⟨fun _ _ => htask, (if_neg hnot).trans (if_neg fun h => htask (of_decide_eq_true h))⟩

theorem Timely.react (h : inst.Timely clock) (hempty : inst.actor.StoppedEmpty) (accepts : Int → Bool) {e : Event}
    (htime : e.time = clock)
    (hdue : ∀ now, e = .keepAlive now → inst.actor.keepAliveTask = some true → inst.due = clock) :
    (inst.react accepts clock e).1.Timely clock := by
  have hinterval : (0 : Int) ≤ keepAliveInterval := by decide
  have hlimit : (0 : Int) ≤ keepAliveLimit := by decide
  refine ⟨h.tended.step accepts e, fun name hname => ?_, fun name player hlive => ?_, fun htask => ?_, fun htask => ?_,
    fun name hquit => ?_⟩
  · exact h.listed name (SessionActor.step_keys accepts inst.actor e ▸ hname)
  -- The last sign of life is an old one, or this event.
  · rcases SessionActor.step_live_time _ hlive with ⟨before, hbefore, hsame⟩ | ⟨hnow, hsigns⟩
    · obtain ⟨p, hp, hsigns, hp'⟩ := h.heard name before hbefore
      exact ⟨p, List.mem_append_left _ hp, hsigns, hp'.trans hsame.symm⟩
    · exact ⟨_, List.mem_append_right _ (List.mem_singleton_self _), hsigns, hnow.symm⟩
  -- The task starts with this event, it has run, or it is due when it was.
  · rcases react_due accepts inst clock e with ⟨-, hnew, -⟩ | ⟨hstarts, -, ⟨now, rfl, hran, hnext⟩ | ⟨-, hsame⟩⟩
    · rw [hnew]
      omega
    · rw [hnext, hdue now rfl hran]
      omega
    · rw [hsame]
      exact h.due (SessionActor.task_of_step h.tended hempty hstarts htask)
  · rcases react_due accepts inst clock e with
      ⟨-, hnew, hstarted⟩ | ⟨hstarts, hstarted, ⟨now, rfl, hran, hnext⟩ | ⟨-, hsame⟩⟩
    · exact Or.inl (by rw [hnew, hstarted])
    · -- The run has ended those who were silent for too long.
      refine Or.inr fun name player hlive => ?_
      obtain ⟨before, -, -, hrecent⟩ := SessionActor.keepAlive_live hran hlive
      rw [hnext, hdue now rfl hran]
      simp only [Event.time] at htime
      omega
    · have htask' := SessionActor.task_of_step h.tended hempty hstarts htask
      rw [hsame, hstarted]
      refine (h.checked htask').imp_right fun hchecked name player hlive => ?_
      rcases SessionActor.step_live_time _ hlive with ⟨before, hbefore, heq⟩ | ⟨hnow, -⟩
      · rw [heq]
        exact hchecked name before hbefore
      · have hnext := (h.due htask').2
        omega
  -- Nobody is left after a `Quit`, and nobody joins a session that runs.
  · obtain ⟨e', he', hquits⟩ := hquit
    rcases List.mem_append.mp he' with he' | he'
    · obtain ⟨hrunning, hnobody⟩ := h.quit name ⟨e', he', hquits⟩
      refine ⟨SessionActor.step_running hrunning e, fun player hlive => ?_⟩
      obtain ⟨before, hbefore⟩ := SessionActor.live_of_step hrunning hlive
      exact hnobody before hbefore
    · obtain ⟨hrunning, rfl⟩ := Prod.mk.inj (List.mem_singleton.mp he')
      exact ⟨SessionActor.step_running hrunning.symm e',
        fun player => SessionActor.not_live_of_quits hempty hrunning.symm hquits⟩

theorem Timely.elapse (h : inst.Timely clock) {d : Nat}
    (hdue : inst.actor.keepAliveTask = some true → clock + d ≤ inst.due) : inst.Timely (clock + d) where
  tended := h.tended
  listed := h.listed
  heard := h.heard
  due htask := ⟨hdue htask, le_trans (h.due htask).2 (by omega)⟩
  checked := h.checked
  quit := h.quit

/-- A session that has run for longer than an interval, and whose players have all quit while it ran or been silent
    for longer than the limit and an interval, has stopped. -/
theorem Timely.stopped (h : inst.Timely clock) (hrunning : inst.actor.state = .running)
    (hgone : ∀ name ∈ inst.players, inst.Quit .running name ∨
      inst.Silent clock name ∧ inst.startedAt + keepAliveInterval < clock) : inst.actor.stopped = true := by
  by_contra hlive
  have htask : inst.actor.keepAliveTask = some true := h.tended.task.mpr ⟨hrunning, Bool.eq_false_iff.mpr hlive⟩
  refine hlive (h.tended.ended hrunning fun name player hplayer => ?_)
  have hname : name ∈ inst.actor.stats.keys :=
    AList.mem_keys.mp (AList.mem_of_lookup hplayer)
  rcases hgone name (h.listed name hname) with hquit | ⟨hsilent, hage⟩
  · exact (h.quit name hquit).2 player hplayer
  · obtain ⟨p, hp, hsigns, htime⟩ := h.heard name player hplayer
    have hlong := hsilent p hp hsigns
    have hdue := h.due htask
    rcases h.checked htask with hfirst | hchecked
    · omega
    · have hrecent := hchecked name player hplayer
      omega

end Instance

namespace Sessions

/-- The task of each session runs when it is due, and time does not pass it by. -/
def OnSchedule (σ : Sessions) : Action → Prop
  | .elapse d => ∀ i < σ.created, (σ.instances i).actor.keepAliveTask = some true → σ.clock + d ≤ (σ.instances i).due
  | .tick i => (σ.instances i).actor.keepAliveTask = some true → (σ.instances i).due = σ.clock
  | _ => True

instance (σ : Sessions) : (a : Action) → Decidable (OnSchedule σ a)
  | .elapse d => inferInstanceAs (Decidable (∀ i < σ.created,
      (σ.instances i).actor.keepAliveTask = some true → σ.clock + d ≤ (σ.instances i).due))
  | .tick i => inferInstanceAs (Decidable
      ((σ.instances i).actor.keepAliveTask = some true → (σ.instances i).due = σ.clock))
  | .create .. | .send .. | .inject .. | .deliver .. | .lose .. | .handle .. | .close .. => isTrue trivial

/-- The session's id is free again or in use by another session, or its `CloseSession` is on its way. -/
def GaveBack (σ : Sessions) (i : SessionRef) : Prop :=
  (σ.instances i).actor.id ∈ σ.backend.freeSessions ∨
    (∃ info, σ.backend.sessions (σ.instances i).actor.id = some info ∧ info.handler ≠ i) ∨
    ∃ c ∈ σ.closing, c.sender = i

variable {accepts : Int → Bool} {σ : Sessions} {i : SessionRef}

/-- A session gives its id back when it stops. -/
theorem gaveBack_iff (h : σ.Placed) (hi : i < σ.created) : σ.GaveBack i ↔ (σ.instances i).actor.stopped = true := by
  constructor
  · intro hback
    by_contra hlive
    obtain ⟨info, hinfo, hhandler⟩ := h.own i hi (Bool.eq_false_iff.mpr hlive)
    rcases hback with hfree | ⟨info', hinfo', hother⟩ | ⟨c, hc, rfl⟩
    · have hnone := ((h.slots.mem_free _).mp hfree).2
      rw [hinfo] at hnone
      cases hnone
    · rw [hinfo] at hinfo'
      cases hinfo'
      exact hother hhandler
    · exact hlive (h.closing c hc).1
  · intro hstopped
    rcases h.released i hi hstopped with hclosing | hnone
    · exact Or.inr (Or.inr hclosing)
    · cases hentry : σ.backend.sessions (σ.instances i).actor.id with
      | none => exact Or.inl ((h.slots.mem_free _).mpr ⟨h.bound i hi, hentry⟩)
      | some info => exact Or.inr (Or.inl ⟨info, hentry, hnone info hentry⟩)

/-- The times of all sessions that are created. -/
def Timed (σ : Sessions) : Prop := ∀ i < σ.created, (σ.instances i).Timely σ.clock

theorem Timed.react (h : σ.Timed) (hplaced : σ.Placed) (accepts : Int → Bool) (i : SessionRef)
    (mailbox : List SignedEnvelop) {e : Event} (htime : e.time = σ.clock) (hdue : ∀ now, e = .keepAlive now →
      (σ.instances i).actor.keepAliveTask = some true → (σ.instances i).due = σ.clock) :
    (σ.react accepts i mailbox e).Timed := by
  intro j hj
  by_cases hji : j = i
  · subst hji
    simp only [Sessions.react, Function.update_self]
    exact ((h j hj).mail mailbox).react (hplaced.stopped j) accepts htime hdue
  · rw [react_other hji]
    exact h j hj

theorem Timed.receive (h : σ.Timed) (d : Datagram) : (σ.receive d).Timed := by
  unfold Sessions.receive
  split
  · rename_i handler _
    intro i hi
    by_cases hhandler : i = handler
    · subst hhandler
      simp only [Function.update_self]
      exact (h i hi).mail _
    · simp only [Function.update_of_ne hhandler]
      exact h i hi
  · exact h

theorem Timed.step (h : σ.Timed) (hplaced : σ.Placed) {a : Action} (hschedule : OnSchedule σ a) :
    (σ.step accepts a).Timed := by
  have hstep := happens hplaced accepts a
  generalize σ.step accepts a = σ' at hstep ⊢
  cases hstep with
  | dropped => exact h
  | created =>
    intro i hi
    by_cases hnew : i = σ.created
    · subst hnew
      simp only [Function.update_self]
      exact .create _ _ _
    · simp only [Function.update_of_ne hnew]
      exact h i (lt_of_le_of_ne (Nat.le_of_lt_succ hi) hnew)
  | posted => exact h
  | @delivered _ d wire =>
    have hsame : Timed { σ with wire } := h
    exact hsame.receive d
  | handled => exact h.react hplaced accepts _ _ rfl fun _ heq => by cases heq
  | ticked => exact h.react hplaced accepts _ _ rfl fun _ _ htask => hschedule htask
  | closed => exact h
  | elapsed => exact fun i hi => (h i hi).elapse (hschedule i hi)

/-- Every state of a run on schedule. -/
theorem timed_run (accepts : Int → Bool) (clock : Int) {as : List Action}
    (hschedule : Machine.Along (step accepts) OnSchedule (start clock) as) :
    (Machine.run (step accepts) (start clock) as).Placed ∧ (Machine.run (step accepts) (start clock) as).Timed :=
  Machine.run_invariant (P := fun σ => σ.Placed ∧ σ.Timed)
    (fun _ a h hok => ⟨h.1.step accepts a, h.2.step h.1 hok⟩) ⟨.start clock, fun i hi => absurd hi (Nat.not_lt_zero i)⟩
    hschedule

/-- In a run on schedule, a session whose players have all quit it while it ran, or have been silent for longer than
    the limit and an interval, and which, if it runs, has done so for longer than an interval, gives its id back if and
    only if it runs. -/
theorem abandoned_gives_back_iff (accepts : Int → Bool) (clock : Int) {as : List Action}
    (hschedule : Machine.Along (step accepts) OnSchedule (start clock) as) {i : SessionRef}
    (hi : i < (Machine.run (step accepts) (start clock) as).created) :
    let σ := Machine.run (step accepts) (start clock) as
    let inst := σ.instances i
    (∀ name ∈ inst.players, inst.Quit .running name ∨ inst.Silent σ.clock name ∧
      (inst.actor.state = .running → inst.startedAt + keepAliveInterval < σ.clock)) →
      (σ.GaveBack i ↔ inst.actor.state = .running) := by
  intro σ inst hgone
  obtain ⟨hplaced, htimed⟩ := timed_run accepts clock hschedule
  rw [gaveBack_iff hplaced hi]
  have htimely := htimed i hi
  refine ⟨htimely.tended.stops, fun hrunning => htimely.stopped hrunning fun name hname => ?_⟩
  exact (hgone name hname).imp_right fun hsilent => ⟨hsilent.1, hsilent.2 hrunning⟩

/-- Two players get ready, one quits, and the other is not heard of for more than eleven seconds. -/
def leaving : List Action :=
  [.create "s" ["a", "b"], .send 0 1 (.json (.ready "a")), .send 0 2 (.json (.ready "b")), .deliver 0 false,
    .deliver 0 false, .handle 0, .handle 0, .send 0 1 (.json (.quit "a")), .deliver 0 false, .handle 0] ++
  (List.replicate 11 [.elapse 1000, .tick 0]).flatten ++ [.elapse 1]

theorem leaving_gives_back : (Machine.run (step fun _ => true) (start 0) leaving).GaveBack 0 := by
  have hplayers : ((Machine.run (step fun _ => true) (start 0) leaving).instances 0).players = ["a", "b"] := by
    decide +kernel
  refine (abandoned_gives_back_iff (fun _ => true) 0 (by decide +kernel) (by decide +kernel) fun name hname => ?_).mpr
    (by decide +kernel)
  rw [hplayers] at hname
  rcases List.mem_pair.mp hname with rfl | rfl
  · exact Or.inl ⟨.receive 0 1 (.json (.quit "a")), by decide +kernel, rfl⟩
  · refine Or.inr ⟨?_, fun _ => by decide +kernel⟩
    unfold Instance.Silent
    decide +kernel

/-- A session that one of two players got ready for keeps its id after a minute in which nothing has come. -/
theorem waiting_keeps_id :
    ¬∀ (accepts : Int → Bool) (clock : Int) (as : List Action),
      Machine.Along (step accepts) OnSchedule (start clock) as →
      ∀ i < (Machine.run (step accepts) (start clock) as).created,
        let σ := Machine.run (step accepts) (start clock) as
        (∀ name ∈ (σ.instances i).players, (∃ mode, (σ.instances i).Quit mode name) ∨
          ∀ mode now address raw, (mode, .receive now address raw) ∈ (σ.instances i).handled →
            now + keepAliveLimit + keepAliveInterval < σ.clock) →
        σ.GaveBack i := by
  intro h
  let as : List Action := [.create "s" ["a", "b"], .send 0 1 (.json (.ready "a")), .deliver 0 false, .handle 0,
    .elapse 60000]
  have hi : 0 < (Machine.run (step fun _ => true) (start 0) as).created := by decide +kernel
  have hhandled : ((Machine.run (step fun _ => true) (start 0) as).instances 0).handled =
      [(.waiting, .receive 0 1 (.json (.ready "a")))] := by decide +kernel
  have hback := h (fun _ => true) 0 as (by decide +kernel) 0 hi fun name _ => Or.inr fun mode now address raw hmem => by
    rw [hhandled] at hmem
    cases List.mem_singleton.mp hmem
    decide +kernel
  have hstopped := (gaveBack_iff (placed_run (fun _ => true) 0 as) hi).mp hback
  exact absurd hstopped (by decide +kernel)

end Sessions

end MultiSlider
