import MultiSlider.Session.Registers

/-! The private data of a player. While the player is live, its entry is a register with the timestamp of the `Update`
    that wrote it: a newer `Update` overwrites it and an older one does nothing, in whatever order and however often
    they come, and nothing else writes it. -/

namespace MultiSlider

open LastWriter (Cell)

/-- What an event writes to the private data of `name`. -/
def Event.updatesOf (name : String) : Event → List (Cell Int String)
  | .receive _ _ (.json (.update playerName timestamp _ privateData _)) =>
    if playerName = name then [⟨toLong timestamp, privateData⟩] else []
  | _ => []

/-- The private data of an entry with its timestamp. -/
def PlayerStatistics.cell (player : PlayerStatistics) : Cell Int String := ⟨player.updateTimestamp, player.privateData⟩

namespace SessionActor

/-- The private data of a live player with its timestamp. -/
def cell (a : SessionActor) (name : String) : Option (Cell Int String) := (a.stats.lookup name).join.map (·.cell)

/-- If the player is live, its private data is `c`. -/
def CellIs (a : SessionActor) (name : String) (c : Cell Int String) : Prop :=
  ∀ player, a.stats.lookup name = some (some player) → player.cell = c

variable {accepts : Int → Bool} {a : SessionActor} {name : String} {c : Cell Int String}

theorem Plays.cell (h : a.Plays name) (hcell : a.CellIs name c) : a.cell name = some c := by
  obtain ⟨-, player, hlive⟩ := h
  unfold SessionActor.cell
  rw [hlive, ← hcell player hlive]
  rfl

/-- A live entry stored again with the same private data. -/
theorem CellIs.replace (h : a.CellIs name c) {playerName : String} {player player' : PlayerStatistics}
    (hlive : a.stats.lookup playerName = some (some player)) (hsame : playerName = name → player'.cell = player.cell) :
    CellIs { a with stats := a.stats.replace playerName (some player') } name c := by
  intro p hp
  rcases AList.of_lookup_replace hp with ⟨heq, hnew⟩ | ⟨-, hold⟩
  · cases hnew
    rw [hsame heq.symm]
    exact h player (heq ▸ hlive)
  · exact h p hold

theorem CellIs.quitImpl (h : a.CellIs name c) (playerName : String) : (a.quitImpl playerName).1.CellIs name c := by
  intro player hp
  rw [quitImpl_lookup] at hp
  split at hp
  · simp at hp
  · exact h player hp

/-- A player who joins has written nothing. -/
theorem CellIs.join (h : a.CellIs name ⟨0, ""⟩) {now : Int} {senderAddress : Address} {playerName : String} :
    (a.join now senderAddress playerName).CellIs name ⟨0, ""⟩ := by
  intro player hp
  rcases AList.of_lookup_replace hp with ⟨-, hnew⟩ | ⟨-, hold⟩
  · cases hnew
    rfl
  · exact h player hold

/-- Nothing but its own `Update`s changes the private data of a live player. -/
theorem CellIs.other (h : a.CellIs name c) (hjoin : a.state = .waiting → c = ⟨0, ""⟩) {e : Event}
    (hnone : e.updatesOf name = []) : (a.step accepts e).CellIs name c := by
  cases e with
  | keepAlive now =>
    exact keepAlive_induct (P := fun b => b.CellIs name c) h (fun _ _ _ _ hlive hb => hb.replace hlive fun _ => rfl)
      fun _ playerName _ _ _ hb => hb.quitImpl playerName
  | receive now senderAddress raw =>
    change (a.receive accepts now senderAddress raw).1.CellIs name c
    rcases receive_change accepts a now senderAddress raw with hsame | ⟨-, message, rfl, hchange⟩
    · rw [hsame]
      exact h
    · generalize (a.receive accepts now senderAddress (.json message)).1 = a' at hchange
      generalize hextract : message.extract = extracted at hchange
      cases hchange with
      | nothing => exact h
      | joined waiting member missing =>
        obtain rfl := hjoin waiting
        exact h.join
      | started waiting member full =>
        obtain rfl := hjoin waiting
        exact h.join
      | touched live => exact h.replace live fun _ => rfl
      | @updated playerName privateData timestamp forceBroadcast sharedData player running live newer =>
        refine h.replace live fun heq => ?_
        cases message with
        | update playerName' timestamp' forceBroadcast' privateData' sharedData' =>
          cases hextract
          rw [Event.updatesOf, if_pos heq] at hnone
          cases hnone
        | _ => cases hextract
      | numbered running => exact h
      | departed running => exact h.quitImpl _

/-- An `Update` of a live player is one write of its register, and touches no other entry. -/
theorem receive_own_update (hstopped : a.StoppedEmpty) (hplays : a.Plays name) (hcell : a.CellIs name c) (now : Int)
    (senderAddress : Address) (timestamp : Int) (forceBroadcast : Bool) (privateData : String)
    (sharedData : Option String) :
    (a.receive accepts now senderAddress
      (.json (.update name timestamp forceBroadcast privateData sharedData))).1.CellIs name
        (c.write ⟨toLong timestamp, privateData⟩) := by
  obtain ⟨hrunning, player, hlive⟩ := hplays
  have hsame := hcell player hlive
  rw [receive_update (hstopped.not_stopped hlive) hrunning hlive]
  unfold Cell.write
  rw [← hsame]
  split
  · rename_i hnewer
    rw [if_pos (show player.cell.stamp < _ from hnewer)]
    intro p hp
    change (a.stats.replace name _).lookup name = some (some p) at hp
    rw [AList.lookup_replace_self (AList.mem_of_lookup hlive)] at hp
    cases hp
    rfl
  · rename_i hold
    rw [if_neg (show ¬player.cell.stamp < _ from hold), hsame]
    exact hcell

theorem CellIs.step (accepts : Int → Bool) (hstopped : a.StoppedEmpty) (hplays : a.Plays name) (h : a.CellIs name c)
    (e : Event) : (a.step accepts e).CellIs name (Machine.run Cell.write c (e.updatesOf name)) := by
  by_cases hown : ∃ now senderAddress timestamp forceBroadcast privateData sharedData, e =
      .receive now senderAddress (.json (.update name timestamp forceBroadcast privateData sharedData))
  · obtain ⟨now, senderAddress, timestamp, forceBroadcast, privateData, sharedData, rfl⟩ := hown
    rw [Event.updatesOf, if_pos rfl]
    exact receive_own_update hstopped hplays h now senderAddress timestamp forceBroadcast privateData sharedData
  · have hnone : e.updatesOf name = [] := by
      unfold Event.updatesOf
      split
      · rename_i now senderAddress playerName timestamp forceBroadcast privateData sharedData
        split
        · rename_i heq
          subst heq
          exact absurd ⟨_, _, _, _, _, _, rfl⟩ hown
        · rfl
      · rfl
    rw [hnone]
    exact h.other (fun hwaiting => absurd (hplays.1.symm.trans hwaiting) (by decide)) hnone

/-- An `Update` of one player leaves the entries of the others alone. -/
theorem updates_frame {e : Event} (hupdates : e.updatesOf name ≠ []) {other : String} (hother : other ≠ name) :
    (a.step accepts e).stats.lookup other = a.stats.lookup other := by
  unfold Event.updatesOf at hupdates
  split at hupdates
  · rename_i now senderAddress playerName timestamp forceBroadcast privateData sharedData
    split at hupdates
    · rename_i heq
      subst heq
      change (a.receive accepts now senderAddress _).1.stats.lookup other = _
      rcases receive_change accepts a now senderAddress
        (.json (.update playerName timestamp forceBroadcast privateData sharedData)) with
        hsame | ⟨-, message, heq, hchange⟩
      · rw [hsame]
      · cases heq
        generalize (a.receive accepts now senderAddress _).1 = a' at hchange
        generalize hextract : BackendMessage.extract _ = extracted at hchange
        cases hchange with
        | nothing => rfl
        | updated running live newer =>
          cases hextract
          exact AList.lookup_replace_ne hother
        | _ => cases hextract
    · exact absurd rfl hupdates
  · exact absurd rfl hupdates

/-! ### Runs -/

/-- The event does not set the timestamp of a live player back. -/
def NeverOlder (accepts : Int → Bool) (name : String) (a : SessionActor) (e : Event) : Prop :=
  ∃ c c', a.cell name = some c ∧ (a.step accepts e).cell name = some c' ∧ c.stamp ≤ c'.stamp

/-- What an `Update` of `name` does not touch: the private data of the other players. -/
def OthersKept (accepts : Int → Bool) (name : String) (a : SessionActor) (e : Event) : Prop :=
  e.updatesOf name ≠ [] → ∀ other, other ≠ name → (a.step accepts e).cell other = a.cell other

theorem othersKept (e : Event) : a.OthersKept accepts name e := by
  intro hupdates other hother
  unfold SessionActor.cell
  rw [updates_frame hupdates hother]

theorem updatesOf_write_le (c : Cell Int String) (name : String) (e : Event) :
    c.stamp ≤ (Machine.run Cell.write c (e.updatesOf name)).stamp :=
  (Cell.run_stamp_le_iff.mp le_rfl).1

/-- A run before the first `Update` of a player. -/
theorem cellIs_before (id : Nat) (players : List String) {events : List Event}
    (hnone : ∀ e ∈ events, e.updatesOf name = []) :
    (Machine.run (step accepts) (create id players) events).CellIs name ⟨0, ""⟩ := by
  have halong : Machine.Along (step accepts) (fun _ e => e.updatesOf name = []) (create id players) events :=
    Machine.along_of_forall fun e he _ => hnone e he
  refine Machine.run_invariant (P := fun a : SessionActor => a.CellIs name ⟨0, ""⟩)
    (fun a e ha he => ha.other (fun _ => rfl) he) ?_ halong
  intro player hp
  simp only [create, AList.lookup_ofKeys] at hp
  split at hp
  · cases hp
  · cases hp

/-- A run in which the player stays live. -/
theorem cellIs_run (hreach : Reachable accepts a) (h : a.CellIs name c) {events : List Event}
    (hlive : Machine.Always (step accepts) (·.Plays name) a events) :
    (Machine.run (step accepts) a events).cell name =
        some (Machine.run Cell.write c (events.flatMap (Event.updatesOf name))) ∧
      Machine.Along (step accepts) (NeverOlder accepts name) a events := by
  induction events generalizing a c with
  | nil => exact ⟨Plays.cell hlive h, trivial⟩
  | cons e events ih =>
    obtain ⟨hplays, hrest⟩ := hlive
    have hstep := h.step accepts hreach.stoppedEmpty hplays e
    obtain ⟨hend, halong⟩ := ih (hreach.run [e]) hstep hrest
    refine ⟨?_, ⟨c, _, hplays.cell h, hrest.first.cell hstep, updatesOf_write_le c name e⟩, halong⟩
    rw [Machine.run_cons, List.flatMap_cons, Machine.run_append]
    exact hend

/-- Where all `Update`s of a player come while the session runs and the player is live, with positive timestamps of
    which no two `Update`s share one, its private data ends as that of the newest, its timestamp never goes back, and
    the private data of the others is not touched by them. -/
theorem newest_update_wins (accepts : Int → Bool) (id : Nat) (players : List String) {before events : List Event}
    (hbefore : ∀ e ∈ before, e.updatesOf name = [])
    (hlive : Machine.Always (step accepts) (·.Plays name) (Machine.run (step accepts) (create id players) before)
      events)
    (hpositive : ∀ u ∈ events.flatMap (Event.updatesOf name), 0 < u.stamp)
    (hdistinct : ∀ u ∈ events.flatMap (Event.updatesOf name), ∀ u' ∈ events.flatMap (Event.updatesOf name),
      u.stamp = u'.stamp → u = u')
    {newest : Cell Int String} (hmem : newest ∈ events.flatMap (Event.updatesOf name))
    (hnewest : ∀ u ∈ events.flatMap (Event.updatesOf name), u.stamp ≤ newest.stamp) :
    (Machine.run (step accepts) (create id players) (before ++ events)).cell name = some newest ∧
      Machine.Along (step accepts) (NeverOlder accepts name) (Machine.run (step accepts) (create id players) before)
        events ∧
      Machine.Along (step accepts) (OthersKept accepts name) (create id players) (before ++ events) := by
  obtain ⟨hend, hnever⟩ := cellIs_run ((Reachable.create id players).run before)
    (cellIs_before id players hbefore) hlive
  refine ⟨?_, hnever, Machine.along_of_forall fun e _ a => a.othersKept e⟩
  rw [Machine.run_append, hend]
  exact congrArg some (Cell.run_newest hmem (hpositive newest hmem) hnewest fun u hu => hdistinct u hu newest hmem)

/-- Two players get ready. -/
def readyPair : List Event := [.receive 0 1 (.json (.ready "a")), .receive 0 2 (.json (.ready "b"))]

/-- The second `Update` of a player overtakes the first, which then comes twice; another player writes in between. -/
def overtaken : List Event :=
  [.receive 5 1 (.json (.update "a" 7 true "new" none)), .receive 6 2 (.json (.update "b" 9 false "x" none)),
    .receive 7 1 (.json (.update "a" 3 false "old" none)), .keepAlive 8,
    .receive 9 1 (.json (.update "a" 3 false "old" none))]

theorem newest_update_wins_overtaken :
    (Machine.run (step fun _ => true) (create 0 ["a", "b"]) (readyPair ++ overtaken)).cell "a" = some ⟨7, "new"⟩ :=
  (newest_update_wins (fun _ => true) 0 ["a", "b"] (by decide +kernel) (by decide +kernel) (by decide +kernel)
    (by decide +kernel) (by decide +kernel) (by decide +kernel)).1

end SessionActor

end MultiSlider
