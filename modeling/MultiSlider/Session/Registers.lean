import MultiSlider.Lib.LastWriter
import MultiSlider.Session.Steps

/-! The timestamps of a session. An `Update` is compared with the timestamp of its player, and only then with
    that of the shared data, so a session is a group of last-writer-wins registers behind a guard; the
    writers are the players. An `Update` that its player has overtaken is dropped whole, with shared data
    that may be the newest there is. -/

namespace MultiSlider

open LastWriter (Registers)

/-- The write that an `Update` asks for; empty shared data is no value. -/
def Event.write : Event → Option (LastWriter.Write String Int String)
  | .receive _ _ (.json (.update playerName timestamp _ _ sharedData)) =>
    some ⟨playerName, toLong timestamp, sharedData.filter (· ≠ "")⟩
  | _ => none

namespace SessionActor

/-- The session runs, and the player is live in it. -/
def Plays (a : SessionActor) (name : String) : Prop :=
  a.state = .running ∧ ∃ player, a.stats.lookup name = some (some player)

instance (a : SessionActor) (name : String) : Decidable (a.Plays name) :=
  decidable_of_iff (a.state = .running ∧ (a.stats.lookup name).join.isSome = true) (by
    simp [Plays, Option.isSome_iff_exists, Option.join_eq_some_iff])

/-- What an event writes; the `Update` of a player who is not live writes nothing. -/
def writes (a : SessionActor) (e : Event) : List (LastWriter.Write String Int String) :=
  e.write.toList.filter fun w => a.Plays w.writer

/-- The registers of a session before the first `Update`. -/
def noWrites : Registers String Int String := ⟨fun _ => 0, 0, ""⟩

/-- The timestamps of a session are those of `r`. -/
structure Holds (a : SessionActor) (r : Registers String Int String) : Prop where
  seen : ∀ name player, a.stats.lookup name = some (some player) → player.updateTimestamp = r.seen name
  waiting : a.state = .waiting → ∀ name, r.seen name = 0
  shared : a.sharedStats = ⟨r.stamp, r.value⟩

variable {accepts : Int → Bool} {a : SessionActor} {r : Registers String Int String}

theorem Holds.create (id : Nat) (players : List String) : (create id players).Holds noWrites where
  seen name player h := by
    simp only [SessionActor.create, AList.lookup_ofKeys] at h
    split at h
    · cases h
    · cases h
  waiting _ _ := rfl
  shared := rfl

/-- A live entry stored again under the same timestamp. -/
theorem Holds.replace (h : a.Holds r) {name : String} {player player' : PlayerStatistics}
    (hlive : a.stats.lookup name = some (some player)) (hsame : player'.updateTimestamp = player.updateTimestamp) :
    Holds { a with stats := a.stats.replace name (some player') } r where
  seen name' p hp := by
    rcases AList.of_lookup_replace hp with ⟨heq, hnew⟩ | ⟨-, hold⟩
    · cases hnew
      rw [hsame, heq]
      exact h.seen name player hlive
    · exact h.seen name' p hold
  waiting := h.waiting
  shared := h.shared

theorem Holds.quitImpl (h : a.Holds r) (playerName : String) : (a.quitImpl playerName).1.Holds r where
  seen name player hp := by
    rw [quitImpl_lookup] at hp
    split at hp
    · simp at hp
    · exact h.seen name player hp
  waiting hwaiting := h.waiting (by rwa [quitImpl_state] at hwaiting)
  shared := by
    rw [quitImpl_sharedStats]
    exact h.shared

theorem Holds.keepAlive (h : a.Holds r) (now : Int) : (a.keepAlive now).1.Holds r :=
  keepAlive_induct (P := fun b => b.Holds r) h (fun _ _ _ _ hlive hb => hb.replace hlive rfl)
    fun _ name _ _ _ hb => hb.quitImpl name

/-- The shared data after an `Update` that is taken. -/
theorem overwrite_eq (r : Registers String Int String) (w : LastWriter.Write String Int String)
    (sharedData : Option String) (hvalue : w.value = sharedData.filter (· ≠ "")) (htakes : r.Takes w) :
    SharedStatistics.overwrite ⟨r.stamp, r.value⟩ w.stamp sharedData = ⟨(r.write w).stamp, (r.write w).value⟩ := by
  unfold Registers.write
  rw [if_pos htakes, hvalue]
  cases sharedData with
  | none => rfl
  | some x =>
    by_cases hx : x = ""
    · simp [SharedStatistics.overwrite, Option.filter, hx]
    · by_cases hnewer : r.stamp < w.stamp
      · simp [SharedStatistics.overwrite, Option.filter, hx, hnewer]
      · simp [SharedStatistics.overwrite, Option.filter, hx, hnewer]

/-- An `Update` of a live player writes its register, and through it the shared one. -/
theorem Holds.update (h : a.Holds r) (hstopped : a.stopped = false) {playerName : String} (hplays : a.Plays playerName)
    (now : Int) (senderAddress : Address) (timestamp : Int) (forceBroadcast : Bool) (privateData : String)
    (sharedData : Option String) :
    Holds (a.receive accepts now senderAddress
      (.json (.update playerName timestamp forceBroadcast privateData sharedData))).1
      (r.write ⟨playerName, toLong timestamp, sharedData.filter (· ≠ "")⟩) := by
  obtain ⟨hrunning, player, hlive⟩ := hplays
  rw [receive_update hstopped hrunning hlive]
  have hseen := h.seen playerName player hlive
  split
  · rename_i hnewer
    have htakes : r.Takes ⟨playerName, toLong timestamp, sharedData.filter (· ≠ "")⟩ := by
      rw [hseen] at hnewer
      exact hnewer
    refine ⟨fun name p hp => ?_, fun hwaiting => absurd (hrunning.symm.trans hwaiting) (by decide), ?_⟩
    · rw [Registers.write_seen, if_pos htakes]
      rcases AList.of_lookup_replace hp with ⟨heq, hnew⟩ | ⟨hne, hold⟩
      · cases hnew
        rw [heq, Function.update_self]
      · rw [Function.update_of_ne hne]
        exact h.seen name p hold
    · rw [h.shared]
      exact overwrite_eq r ⟨playerName, toLong timestamp, sharedData.filter (· ≠ "")⟩ sharedData rfl htakes
  · rename_i hold
    have hrefused : ¬r.Takes ⟨playerName, toLong timestamp, sharedData.filter (· ≠ "")⟩ := by
      rw [hseen] at hold
      exact hold
    unfold Registers.write
    rw [if_neg hrefused]
    exact h

/-- A message that writes nothing keeps the registers. -/
theorem Holds.change (h : a.Holds r) {now : Int} {senderAddress : Address} {message : BackendMessage}
    {a' : SessionActor} (hchange : a.Change now senderAddress message a')
    (hwrites : ∀ playerName timestamp forceBroadcast privateData sharedData,
      message = .update playerName timestamp forceBroadcast privateData sharedData → ¬a.Plays playerName) :
    a'.Holds r := by
  have joined : ∀ playerName, a.state = .waiting → ∀ name player,
      (a.join now senderAddress playerName).stats.lookup name = some (some player) →
      player.updateTimestamp = r.seen name := by
    intro playerName waiting name player hp
    rcases AList.of_lookup_replace hp with ⟨-, hnew⟩ | ⟨-, hold⟩
    · cases hnew
      exact (h.waiting waiting name).symm
    · exact h.seen name player hold
  cases hchange with
  | nothing => exact h
  | joined waiting member missing => exact ⟨joined _ waiting, h.waiting, h.shared⟩
  | started waiting member full =>
    exact ⟨joined _ waiting, fun hwaiting => absurd hwaiting (by simp), h.shared⟩
  | touched live => exact h.replace live rfl
  | updated running live newer => exact absurd ⟨running, _, live⟩ (hwrites _ _ _ _ _ rfl)
  | numbered running => exact ⟨h.seen, h.waiting, h.shared⟩
  | departed running => exact h.quitImpl _

theorem Holds.step (accepts : Int → Bool) (h : a.Holds r) (hstopped : a.StoppedEmpty) (e : Event) :
    (a.step accepts e).Holds (Machine.run Registers.write r (a.writes e)) := by
  cases e with
  | keepAlive now => exact h.keepAlive now
  | receive now senderAddress raw =>
    -- A message that is no `Update` of a player writes no register.
    have quiet (hnone : a.writes (.receive now senderAddress raw) = [])
        (hwrites : ∀ playerName timestamp forceBroadcast privateData sharedData,
          raw = .json (.update playerName timestamp forceBroadcast privateData sharedData) → ¬a.Plays playerName) :
        (a.step accepts (.receive now senderAddress raw)).Holds
          (Machine.run Registers.write r (a.writes (.receive now senderAddress raw))) := by
      rw [hnone, Machine.run_nil]
      rcases receive_change accepts a now senderAddress raw with hsame | ⟨-, message, hraw, hchange⟩
      · change Holds (a.receive accepts now senderAddress raw).1 r
        rw [hsame]
        exact h
      · refine h.change hchange ?_
        intro playerName timestamp forceBroadcast privateData sharedData hextract
        subst hraw
        cases message <;> cases hextract
        exact hwrites _ _ _ _ _ rfl
    by_cases hupdate : ∃ playerName timestamp forceBroadcast privateData sharedData,
        raw = .json (.update playerName timestamp forceBroadcast privateData sharedData) ∧ a.Plays playerName
    · obtain ⟨playerName, timestamp, forceBroadcast, privateData, sharedData, rfl, hplays⟩ := hupdate
      have hrunning : a.stopped = false := by
        obtain ⟨-, player, hlive⟩ := hplays
        exact hstopped.not_stopped hlive
      have hwrites : a.writes (.receive now senderAddress
          (.json (.update playerName timestamp forceBroadcast privateData sharedData))) =
          [⟨playerName, toLong timestamp, sharedData.filter (· ≠ "")⟩] := by
        simp [writes, Event.write, hplays]
      rw [hwrites]
      exact h.update hrunning hplays now senderAddress timestamp forceBroadcast privateData sharedData
    · refine quiet ?_ fun playerName timestamp forceBroadcast privateData sharedData hraw hplays =>
        hupdate ⟨playerName, timestamp, forceBroadcast, privateData, sharedData, hraw, hplays⟩
      rw [writes, List.filter_eq_nil_iff]
      intro w hw hplays
      unfold Event.write at hw
      split at hw
      · rename_i now' senderAddress' playerName timestamp forceBroadcast privateData sharedData heq
        cases heq
        simp only [Option.toList_some, List.mem_singleton] at hw
        subst hw
        exact hupdate ⟨_, _, _, _, _, rfl, of_decide_eq_true hplays⟩
      · cases hw

/-- Along a run of a session its timestamps are those of its registers after what the run has written. -/
theorem holds_run (accepts : Int → Bool) (id : Nat) (players : List String) (events : List Event) :
    (Machine.run (step accepts) (create id players) events).Holds
      (Machine.run Registers.write noWrites (Machine.outputs (step accepts) writes (create id players) events)) := by
  induction events using List.reverseRecOn with
  | nil => exact .create id players
  | append_singleton events e ih =>
    rw [Machine.run_append, Machine.outputs_append, Machine.run_append]
    have hreach : Reachable accepts (Machine.run (step accepts) (create id players) events) :=
      (Reachable.create id players).run events
    have hstep := ih.step accepts hreach.stoppedEmpty e
    simpa [Machine.outputs] using hstep

/-- Where all `Update`s come from live players, the run writes what they ask for. -/
theorem outputs_writes {events : List Event}
    (h : Machine.Along (step accepts) (fun a e => ∀ w ∈ e.write, a.Plays w.writer) a events) :
    Machine.outputs (step accepts) writes a events = events.filterMap Event.write := by
  induction events generalizing a with
  | nil => rfl
  | cons e events ih =>
    obtain ⟨hplays, hrest⟩ := h
    rw [Machine.outputs, ih hrest]
    cases hwrite : e.write with
    | none => simp [writes, hwrite]
    | some w => simp [writes, hwrite, hplays w hwrite]

/-! ### The newest shared data -/

/-- Along a run whose `Update`s come from live players and have positive timestamps, of which no two `Update`s
    share one, the shared data ends as that of the newest `Update` that carries any, if and only if no newer
    `Update` of the same player is delivered before it. -/
theorem shared_newest_iff (accepts : Int → Bool) (id : Nat) (players : List String) {events : List Event}
    (hlive : Machine.Along (step accepts) (fun a e => ∀ w ∈ e.write, a.Plays w.writer) (create id players) events)
    (hpositive : ∀ w ∈ events.filterMap Event.write, 0 < w.stamp)
    (hdistinct : ∀ w ∈ events.filterMap Event.write, ∀ w' ∈ events.filterMap Event.write,
      w.stamp = w'.stamp → w = w')
    {m : LastWriter.Write String Int String} {x : String} (hm : m ∈ events.filterMap Event.write)
    (hx : m.value = some x)
    (hnewest : ∀ w ∈ events.filterMap Event.write, w.value.isSome → w.stamp ≤ m.stamp) :
    (Machine.run (step accepts) (create id players) events).sharedStats = ⟨m.stamp, x⟩ ↔
      ∃ pre suf, events.filterMap Event.write = pre ++ m :: suf ∧
        ∀ w ∈ pre, w.writer = m.writer → w.stamp < m.stamp := by
  have hholds := holds_run accepts id players events
  rw [outputs_writes hlive] at hholds
  rw [hholds.shared, SharedStatistics.mk.injEq]
  exact Registers.run_newest_iff hm hx hnewest (fun w hw => hdistinct w hw m hm) (hpositive m hm) (hpositive m hm)

/-- Player `b` overtakes `a`'s newest shared data, which still gets through. -/
theorem shared_newest_first :
    let events := [Event.receive 0 1 (.json (.ready "a")), .receive 0 2 (.json (.ready "b")),
      .receive 5 2 (.json (.update "b" 9 false "p" none)), .receive 6 1 (.json (.update "a" 7 false "q" (some "x")))]
    (Machine.run (step fun _ => true) (create 0 ["a", "b"]) events).sharedStats = ⟨7, "x"⟩ := by
  refine (shared_newest_iff (fun _ => true) 0 ["a", "b"] ?_ ?_ ?_ (m := ⟨"a", 7, some "x"⟩) ?_ rfl ?_).mpr
    ⟨[⟨"b", 9, none⟩], [], ?_, ?_⟩
  all_goals decide +kernel

/-- A player's newest shared data is lost where its next `Update`, which carries none, overtakes it. -/
theorem shared_newest_lost :
    ¬∀ (accepts : Int → Bool) (id : Nat) (players : List String) (events : List Event),
      Machine.Along (step accepts) (fun a e => ∀ w ∈ e.write, a.Plays w.writer) (create id players) events →
      (∀ w ∈ events.filterMap Event.write, 0 < w.stamp) →
      (∀ w ∈ events.filterMap Event.write, ∀ w' ∈ events.filterMap Event.write, w.stamp = w'.stamp → w = w') →
      ∀ m ∈ events.filterMap Event.write, ∀ x, m.value = some x →
        (∀ w ∈ events.filterMap Event.write, w.value.isSome → w.stamp ≤ m.stamp) →
        (Machine.run (step accepts) (create id players) events).sharedStats = ⟨m.stamp, x⟩ := by
  intro h
  have hend := h (fun _ => true) 0 ["a"] [.receive 0 1 (.json (.ready "a")),
    .receive 5 1 (.json (.update "a" 2 false "p" (some ""))), .receive 6 1 (.json (.update "a" 1 false "q" (some "x")))]
    (by decide +kernel) (by decide +kernel) (by decide +kernel) ⟨"a", 1, some "x"⟩ (by decide +kernel) "x" rfl
    (by decide +kernel)
  exact absurd hend (by decide +kernel)

end SessionActor

end MultiSlider
