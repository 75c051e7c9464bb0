import MultiSlider.Session.Abandoned

/-! When the keep-alive task ends a player. The time of a player's last sign of life is set by `Ready` too, and
    nothing sets it anew when the session starts: the time that a player has waited for the others counts as
    silence, though nothing was expected of it. -/

namespace MultiSlider

/-- A session with its clock; `startedAt` is when it started to run, and `heard` when a player's last `KeepAlive`
    or accepted `Update` was handled. -/
structure Timeline where
  actor : SessionActor
  clock : Int
  startedAt : Option Int
  heard : String → Option Int

/-- Time passes, a datagram is handled, or the task runs. -/
inductive Timeline.Action where
  | elapse (d : Nat)
  | receive (senderAddress : Address) (raw : Payload)
  | tick
deriving DecidableEq, Repr

namespace SessionActor

/-- The message is a `KeepAlive` of the player, or an `Update` of it that is accepted. -/
def hears (a : SessionActor) (name : String) : Payload → Bool
  | .json message => match message.extract with
    | .keepAlive (some playerName) _ => playerName = name
    | .update playerName timestamp _ _ _ => playerName = name && a.state = .running &&
      match a.stats.lookup name with
      | some (some player) => player.updateTimestamp < timestamp
      | _ => false
    | _ => false
  | .text _ => false

variable {accepts : Int → Bool} {a : SessionActor} {now : Int} {senderAddress : Address} {name : String}
  {player : PlayerStatistics}

/-- A round of the task leaves the players that have not been silent for too long. -/
theorem keepAlive_spares (htask : a.keepAliveTask = some true) (hlive : a.Live name player)
    (hshort : now - player.lastPingTime ≤ keepAliveLimit) : ∃ after, (a.keepAlive now).1.Live name after := by
  obtain ⟨b, hb, hround⟩ := checkConnection_round now hlive
  unfold keepAlive Live
  rw [if_pos htask]
  dsimp only
  rw [hround]
  simp only [checkPlayer]
  split
  · rw [if_neg (not_lt.mpr hshort)]
    exact ⟨_, AList.lookup_replace_self (AList.mem_of_lookup hb)⟩
  · exact ⟨player, hb⟩

/-- What a `KeepAlive` of a live player sets. -/
theorem live_of_touch (hlive : (a.touch now (some name)).actor.Live name player) : player.lastPingTime = now := by
  cases hentry : a.stats.lookup name with
  | none =>
    simp [touch, done, hentry, Live] at hlive
  | some entry =>
    cases entry with
    | none => simp [touch, raise, hentry, Live] at hlive
    | some before =>
      have hstored : (a.touch now (some name)).actor.stats.lookup name =
          some (some { before with lastPingTime := now }) := by
        simp only [touch, done, Option.bind_some, hentry]
        exact AList.lookup_replace_self (AList.mem_of_lookup hentry)
      cases hstored.symm.trans hlive
      rfl

/-- A player that is live after a message that counts for it has been heard of just now. -/
theorem live_of_hears (hmode : a.state ≠ .zombie) (hstopped : a.stopped = false) {raw : Payload}
    (hhears : a.hears name raw = true) (hlive : (a.receive accepts now senderAddress raw).1.Live name player) :
    player.lastPingTime = now := by
  cases raw with
  | text raw => cases hhears
  | json message =>
    cases message with
    | keepAlive playerName timestamp =>
      cases playerName with
      | none => cases hhears
      | some playerName =>
        obtain rfl : playerName = name := of_decide_eq_true hhears
        rw [receive_actor hstopped] at hlive
        unfold handle at hlive
        cases hstate : a.state with
        | waiting =>
          rw [hstate] at hlive
          exact live_of_touch hlive
        | running =>
          rw [hstate] at hlive
          exact live_of_touch hlive
        | zombie => exact absurd hstate hmode
    | update playerName timestamp forceBroadcast data sharedData =>
      simp only [hears, BackendMessage.extract, Bool.and_eq_true, decide_eq_true_eq] at hhears
      obtain ⟨⟨rfl, running⟩, haccepted⟩ := hhears
      split at haccepted
      · rename_i before hbefore
        unfold Live at hlive
        rw [receive_update hstopped running hbefore, if_pos (of_decide_eq_true haccepted)] at hlive
        rw [AList.lookup_replace_self (AList.mem_of_lookup hbefore)] at hlive
        cases hlive
        rfl
      · cases haccepted
    | _ => cases hhears

/-- A session that waits goes on to wait, or runs. -/
theorem receive_waiting (hwaiting : a.state = .waiting) (raw : Payload) :
    (a.receive accepts now senderAddress raw).1.state = .waiting ∨
      (a.receive accepts now senderAddress raw).1.state = .running := by
  rcases receive_change accepts a now senderAddress raw with hsame | ⟨-, message, -, hchange⟩
  · rw [hsame]
    exact Or.inl hwaiting
  · generalize (a.receive accepts now senderAddress raw).1 = b, message.extract = m at hchange
    cases hchange with
    | started => exact Or.inr rfl
    | departed running => cases hwaiting.symm.trans running
    | _ => exact Or.inl hwaiting

end SessionActor

namespace Timeline

open SessionActor

/-- A new session, of whose players nothing has been heard. -/
def start (id : Nat) (players : List String) (clock : Int) : Timeline :=
  ⟨.create id players, clock, none, fun _ => none⟩

/-- One action; a tick is one round of the keep-alive task. -/
def step (accepts : Int → Bool) (σ : Timeline) : Action → Timeline
  | .elapse d => { σ with clock := σ.clock + d }
  | .receive senderAddress raw =>
    let actor := (σ.actor.receive accepts σ.clock senderAddress raw).1
    { σ with
      actor
      startedAt := if σ.actor.state = .waiting ∧ actor.state = .running then some σ.clock else σ.startedAt
      heard := fun name => if σ.actor.hears name raw then some σ.clock else σ.heard name }
  | .tick => { σ with actor := (σ.actor.keepAlive σ.clock).1 }

/-- A player that a tick disconnects has been silent for more than the limit, since the start of the session or
    since its last `KeepAlive` or accepted `Update`, if that came later. -/
def Deserved (accepts : Int → Bool) (σ : Timeline) : Action → Prop
  | .tick => ∀ name, (∃ player, σ.actor.Live name player) → (¬∃ player, (σ.step accepts .tick).actor.Live name player) →
    ∃ startedAt, σ.startedAt = some startedAt ∧
      σ.clock - max startedAt ((σ.heard name).getD startedAt) > keepAliveLimit
  | _ => True

/-- A tick within the limit after the start finds no live player whose last `Ready`, `KeepAlive` or accepted
    `Update` lies back by more than the limit. -/
def NoneOverdue (σ : Timeline) : Action → Prop
  | .tick => ∀ startedAt, σ.startedAt = some startedAt → σ.clock - startedAt ≤ keepAliveLimit →
    ∀ name player, σ.actor.Live name player → σ.clock - player.lastPingTime ≤ keepAliveLimit
  | _ => True

/-- A session that runs has started, and no player has been heard of after its last sign of life. -/
structure Kept (σ : Timeline) : Prop where
  tended : σ.actor.Tended
  empty : σ.actor.StoppedEmpty
  mode : (σ.startedAt = none ∧ σ.actor.state = .waiting) ∨ (σ.startedAt.isSome = true ∧ σ.actor.state = .running)
  past : ∀ name time, σ.heard name = some time → time ≤ σ.clock
  signs : ∀ name player, σ.actor.Live name player → player.lastPingTime ≤ σ.clock
  last : ∀ name player time, σ.actor.Live name player → σ.heard name = some time → time ≤ player.lastPingTime

variable {accepts : Int → Bool} {σ : Timeline}

theorem Kept.start (id : Nat) (players : List String) (clock : Int) : (start id players clock).Kept where
  tended := .create id players
  empty hstop := by cases hstop
  mode := Or.inl ⟨rfl, rfl⟩
  past name time h := by cases h
  signs name player hlive := by
    have hnone : (SessionActor.create id players).stats.lookup name = some (some player) := hlive
    simp only [SessionActor.create, AList.lookup_ofKeys] at hnone
    split at hnone
    · cases hnone
    · cases hnone
  last name player time _ h := by cases h

theorem Kept.elapse (h : σ.Kept) (d : Nat) : (σ.step accepts (.elapse d)).Kept where
  tended := h.tended
  empty := h.empty
  mode := h.mode
  past name time htime := by
    have := h.past name time htime
    simp only [step]
    omega
  signs name player hlive := by
    have := h.signs name player hlive
    simp only [step]
    omega
  last := h.last

/-- A session that has not started waits, and one that has runs on. -/
theorem Kept.mode_receive (h : σ.Kept) (senderAddress : Address) (raw : Payload) :
    let σ' := σ.step accepts (.receive senderAddress raw)
    (σ'.startedAt = none ∧ σ'.actor.state = .waiting) ∨ (σ'.startedAt.isSome = true ∧ σ'.actor.state = .running) := by
  simp only [step]
  rcases h.mode with ⟨hnone, hwaiting⟩ | ⟨hsome, hrunning⟩
  · rcases receive_waiting hwaiting raw with hstate | hstate
    · exact Or.inl ⟨by simp [hstate, hnone], hstate⟩
    · exact Or.inr ⟨by simp [hstate, hwaiting], hstate⟩
  · have hstate : (σ.actor.step accepts (.receive σ.clock senderAddress raw)).state = .running :=
      step_running hrunning _
    exact Or.inr ⟨by simp [hrunning, hsome], hstate⟩

theorem Kept.not_zombie (h : σ.Kept) : σ.actor.state ≠ .zombie := by
  rcases h.mode with ⟨-, hstate⟩ | ⟨-, hstate⟩
  · rw [hstate]
    decide
  · rw [hstate]
    decide

theorem Kept.receive (h : σ.Kept) (senderAddress : Address) (raw : Payload) :
    (σ.step accepts (.receive senderAddress raw)).Kept where
  tended := h.tended.step accepts (.receive σ.clock senderAddress raw)
  empty := h.empty.step accepts (.receive σ.clock senderAddress raw)
  mode := h.mode_receive senderAddress raw
  past name time htime := by
    simp only [step] at htime ⊢
    split at htime
    · exact Int.le_of_eq (Option.some.inj htime).symm
    · exact h.past name time htime
  signs name player hlive := by
    rcases step_live_time accepts (e := .receive σ.clock senderAddress raw) hlive with
      ⟨before, hbefore, htime⟩ | ⟨htime, -⟩
    · rw [htime]
      exact h.signs name before hbefore
    · exact Int.le_of_eq htime
  last name player time hlive htime := by
    simp only [step] at htime
    split at htime
    · rename_i hhears
      cases hstopped : σ.actor.stopped with
      | true =>
        have hafter := h.empty.step accepts (.receive σ.clock senderAddress raw) (step_stopped h.empty hstopped _)
        exact absurd hlive (hafter.1 name player)
      | false =>
        rw [live_of_hears h.not_zombie hstopped hhears hlive]
        exact Int.le_of_eq (Option.some.inj htime).symm
    · rcases step_live_time accepts (e := .receive σ.clock senderAddress raw) hlive with
        ⟨before, hbefore, hsame⟩ | ⟨hnow, -⟩
      · rw [hsame]
        exact h.last name before time hbefore htime
      · rw [hnow]
        exact h.past name time htime

theorem Kept.tick (h : σ.Kept) : (σ.step accepts .tick).Kept := by
  have before {name : String} {player : PlayerStatistics} (hlive : (σ.step accepts .tick).actor.Live name player) :
      ∃ before, σ.actor.Live name before ∧ player.lastPingTime = before.lastPingTime := by
    rcases step_live_time accepts (e := .keepAlive σ.clock) hlive with hbefore | ⟨-, hsigns⟩
    · exact hbefore
    · cases hsigns
  refine ⟨h.tended.step accepts (.keepAlive σ.clock), h.empty.step accepts (.keepAlive σ.clock), ?_, h.past,
    fun name player hlive => ?_, fun name player time hlive htime => ?_⟩
  · change (σ.startedAt = none ∧ (σ.actor.keepAlive σ.clock).1.state = .waiting) ∨
      (σ.startedAt.isSome = true ∧ (σ.actor.keepAlive σ.clock).1.state = .running)
    rw [Quiet.keepAlive.state]
    exact h.mode
  · obtain ⟨player', hbefore, hsame⟩ := before hlive
    rw [hsame]
    exact h.signs name player' hbefore
  · obtain ⟨player', hbefore, hsame⟩ := before hlive
    rw [hsame]
    exact h.last name player' time hbefore htime

theorem Kept.step (h : σ.Kept) (accepts : Int → Bool) (a : Action) : (σ.step accepts a).Kept := by
  cases a with
  | elapse d => exact h.elapse d
  | receive senderAddress raw => exact h.receive senderAddress raw
  | tick => exact h.tick

variable (accepts) in
/-- A tick ends exactly the players that have been silent for too long. -/
theorem Kept.ended_iff (h : σ.Kept) {name : String} {player : PlayerStatistics} (hlive : σ.actor.Live name player) :
    (¬∃ after, (σ.step accepts .tick).actor.Live name after) ↔
      σ.startedAt.isSome = true ∧ σ.clock - player.lastPingTime > keepAliveLimit := by
  have hstopped := h.empty.not_stopped hlive
  rcases h.mode with ⟨hnone, hwaiting⟩ | ⟨hsome, hrunning⟩
  · have hidle : σ.actor.keepAliveTask ≠ some true := fun htask =>
      nomatch hwaiting.symm.trans (h.tended.task.mp htask).1
    have hsame : (σ.step accepts .tick).actor = σ.actor := step_keepAlive_of_idle accepts hidle
    rw [hsame, hnone]
    simpa using ⟨player, hlive⟩
  · have htask := h.tended.task.mpr ⟨hrunning, hstopped⟩
    constructor
    · intro hended
      refine ⟨hsome, not_le.mp fun hshort => hended ?_⟩
      exact keepAlive_spares htask hlive hshort
    · rintro ⟨-, hlong⟩ ⟨after, hafter⟩
      obtain ⟨before, hbefore, hsame, hshort⟩ := keepAlive_live htask hafter
      obtain rfl : before = player := Option.some.inj (Option.some.inj (hbefore.symm.trans hlive))
      rw [hsame] at hshort
      omega

/-- A tick disconnects only those who deserve it exactly if it finds no player overdue within the limit after the
    start. -/
theorem deserved_iff (h : σ.Kept) (a : Action) : σ.Deserved accepts a ↔ σ.NoneOverdue a := by
  cases a with
  | tick =>
    constructor
    · intro hdeserved startedAt hstarted hearly name player hlive
      by_contra hlong
      have hended := (h.ended_iff accepts hlive).mpr ⟨by rw [hstarted]; rfl, not_le.mp hlong⟩
      obtain ⟨startedAt', hstarted', hmax⟩ := hdeserved name ⟨player, hlive⟩ hended
      cases hstarted.symm.trans hstarted'
      have := le_max_left startedAt ((σ.heard name).getD startedAt)
      omega
    · rintro hnone name ⟨player, hlive⟩ hended
      obtain ⟨hsome, hlong⟩ := (h.ended_iff accepts hlive).mp hended
      obtain ⟨startedAt, hstarted⟩ := Option.isSome_iff_exists.mp hsome
      refine ⟨startedAt, hstarted, ?_⟩
      have hlate : σ.clock - startedAt > keepAliveLimit := by
        by_contra hearly
        exact absurd (hnone startedAt hstarted (not_lt.mp hearly) name player hlive) (not_le.mpr hlong)
      cases hheard : σ.heard name with
      | none => simpa using hlate
      | some time =>
        have hlast := h.last name player time hlive hheard
        simp only [Option.getD_some]
        rcases max_choice startedAt time with hmax | hmax
        · omega
        · omega
  | _ => exact iff_of_true trivial trivial

/-- In every run of a session, each tick disconnects only players who deserve it exactly if no tick within the
    limit after the start finds a player overdue. -/
theorem never_early_iff (accepts : Int → Bool) (id : Nat) (players : List String) (clock : Int) (as : List Action) :
    Machine.Along (step accepts) (Deserved accepts) (start id players clock) as ↔
      Machine.Along (step accepts) NoneOverdue (start id players clock) as :=
  Machine.along_congr (fun _ a h => h.step accepts a) (fun _ a h => deserved_iff h a) (Kept.start id players clock)

/-- A player waits 20 seconds for the other one and is disconnected by the first tick, a second after the start. -/
theorem waiting_costs_place :
    let as : List Action := [.receive 1 (.json (.ready "a")), .elapse 20000, .receive 2 (.json (.ready "b")),
      .elapse 1000]
    let σ := Machine.run (step fun _ => true) (start 0 ["a", "b"] 0) as
    ¬Machine.Along (step fun _ => true) (Deserved fun _ => true) (start 0 ["a", "b"] 0) (as ++ [.tick]) ∧
      σ.startedAt = some 20000 ∧ σ.clock = 21000 ∧ σ.actor.Live "a" ⟨1, 0, "", 0, false⟩ ∧
      (σ.step (fun _ => true) .tick).actor.stats.lookup "a" = some none := by
  intro as σ
  have hstarted : σ.startedAt = some 20000 := by decide +kernel
  have hclock : σ.clock = 21000 := by decide +kernel
  have hlive : σ.actor.stats.lookup "a" = some (some ⟨1, 0, "", 0, false⟩) := by decide +kernel
  have hended : (σ.step (fun _ => true) .tick).actor.stats.lookup "a" = some none := by decide +kernel
  refine ⟨fun h => ?_, hstarted, hclock, hlive, hended⟩
  have hdeserved : σ.Deserved (fun _ => true) .tick := h.2.2.2.2.1
  obtain ⟨startedAt, hat, hlong⟩ := hdeserved "a" ⟨_, hlive⟩ fun ⟨_, hafter⟩ => nomatch hended.symm.trans hafter
  cases hstarted.symm.trans hat
  rw [hclock] at hlong
  have hlimit : keepAliveLimit = 10000 := rfl
  have hmax := le_max_left (20000 : Int) ((σ.heard "a").getD 20000)
  omega

end Timeline

end MultiSlider
