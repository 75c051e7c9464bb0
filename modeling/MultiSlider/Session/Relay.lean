import MultiSlider.Session.Steps

/-! Who gets what a running session relays. A departed player stays in the map as a `null` entry. The
    loops of `Message` and of a forced `Update` do not test for it, unlike those of `Quit`, `RequestSync`
    and the keep-alive task, so they end with an exception at the first `null` entry and serve only the
    players before it. -/

namespace MultiSlider

/-- The addresses that datagrams with content `p` are sent to, one for each datagram. -/
def recipients (p : Payload → Bool) (effects : List Effect) : List Address :=
  effects.filterMap fun
    | .send payload address => if p payload then some address else none
    | _ => none

/-- The datagram shows the state of the session. -/
def Payload.isSessionState : Payload → Bool
  | .json (.sessionState ..) => true
  | _ => false

/-- No departed player stands before a live one. -/
def DepartedLast (players : List (Option PlayerStatistics)) : Prop :=
  players.Pairwise fun x y => y.isSome → x.isSome

instance (players : List (Option PlayerStatistics)) : Decidable (DepartedLast players) := by
  unfold DepartedLast
  infer_instance

namespace SessionActor

/-- The addresses of the live players in `players`. -/
def addresses (players : List (Option PlayerStatistics)) : List Address := players.reduceOption.map (·.address)

/-- The entries that `Message` iterates over. -/
def others (a : SessionActor) (sender : String) : List (Option PlayerStatistics) :=
  (a.stats.entries.filter fun e => e.1 ≠ sender).map (·.2)

/-! ### One loop -/

theorem departedLast_none {players : List (Option PlayerStatistics)} :
    DepartedLast (none :: players) ↔ addresses players = [] := by
  unfold DepartedLast addresses
  rw [List.map_eq_nil_iff, List.pairwise_cons]
  constructor
  · rintro ⟨hall, -⟩
    rw [List.eq_nil_iff_forall_not_mem]
    intro player hmem
    simpa using hall _ (List.reduceOption_mem_iff.mp hmem) rfl
  · intro hnil
    have hnone : ∀ y ∈ players, y.isSome = false := by
      intro y hy
      cases y with
      | none => rfl
      | some player =>
        have := List.reduceOption_mem_iff.mpr hy
        rw [hnil] at this
        cases this
    refine ⟨fun y hy hsome => ?_, List.pairwise_of_forall_mem_list fun x _ y hy hsome => ?_⟩
    · rw [hnone y hy] at hsome
      cases hsome
    · rw [hnone y hy] at hsome
      cases hsome

/-- Where all players have departed, there is nobody to serve. -/
theorem nobody_live {players : List (Option PlayerStatistics)} (h : ∀ player, some player ∉ players) :
    addresses players = [] ∧ DepartedLast players := by
  have hnil : addresses players = [] := by
    unfold addresses
    rw [List.map_eq_nil_iff, List.eq_nil_iff_forall_not_mem]
    exact fun player hmem => h player (List.reduceOption_mem_iff.mp hmem)
  exact ⟨hnil, (List.pairwise_cons.mp (departedLast_none.mpr hnil)).2⟩

theorem departedLast_some {player : PlayerStatistics} {players : List (Option PlayerStatistics)} :
    DepartedLast (some player :: players) ↔ DepartedLast players := by
  simp [DepartedLast]

/-- The loop serves each live player once exactly if no departed one stands before a live one. -/
theorem recipients_sendEach_perm_iff {p : Payload → Bool} {payload : Payload} (hp : p payload = true)
    {players : List (Option PlayerStatistics)} :
    (recipients p (sendEach payload players).1).Perm (addresses players) ↔ DepartedLast players := by
  induction players with
  | nil => exact iff_of_true List.Perm.nil List.Pairwise.nil
  | cons entry players ih =>
    cases entry with
    | none =>
      rw [departedLast_none, show addresses (none :: players) = addresses players from rfl]
      exact List.nil_perm
    | some player =>
      rw [departedLast_some, ← ih]
      simp [sendEach, recipients, addresses, hp]

/-- Liveness and addresses decide what the loop does. -/
theorem departedLast_congr {players players' : List (Option PlayerStatistics)}
    (h : players.map (Option.map (·.address)) = players'.map (Option.map (·.address))) :
    DepartedLast players ↔ DepartedLast players' := by
  have hmap (l : List (Option PlayerStatistics)) :
      DepartedLast l ↔ (l.map (Option.map (·.address))).Pairwise fun x y => y.isSome → x.isSome := by
    simp [DepartedLast, List.pairwise_map]
  rw [hmap, hmap, h]

theorem addresses_congr {players players' : List (Option PlayerStatistics)}
    (h : players.map (Option.map (·.address)) = players'.map (Option.map (·.address))) :
    addresses players = addresses players' := by
  have hmap (l : List (Option PlayerStatistics)) :
      addresses l = (l.map (Option.map (·.address))).reduceOption := by
    simp [addresses, List.reduceOption_map]
  rw [hmap, hmap, h]

variable {accepts : Int → Bool} {a : SessionActor}

/-! ### The two relays -/

/-- The answer to an exception carries no session message. -/
theorem recipients_receive (hstop : a.stopped = false) {now : Int} {senderAddress : Address}
    {message : BackendMessage} {p : Payload → Bool} (hp : ∀ raw, p (.text raw) = false) :
    recipients p (a.receive accepts now senderAddress (.json message)).2 =
      recipients p (a.handle accepts now senderAddress (.json message) message.extract).effects := by
  simp only [receive, hstop, Bool.false_eq_true, if_false]
  split
  · simp [recipients, hp]
  · rfl

/-- An accepted forced `Update` sends one state of the session, the new one, to the entries of its map. -/
theorem update_effects (now : Int) (senderAddress : Address) (privateData : String) (sharedData : Option String)
    {playerName : String} {timestamp : Int} {player : PlayerStatistics}
    (hlive : a.stats.lookup playerName = some (some player)) (hnew : player.updateTimestamp < timestamp) :
    ∃ b : SessionActor, b.stats = a.stats.replace playerName (some { player with
        updateTimestamp := timestamp, privateData, lastPingTime := now }) ∧
      (a.update now senderAddress playerName timestamp true privateData sharedData).effects =
        (sendEach b.sessionState b.stats.values).1 := by
  simp only [update, hlive, if_pos hnew]
  cases sharedData with
  | none => exact ⟨_, rfl, rfl⟩
  | some shared =>
    by_cases hshared : shared ≠ "" ∧ a.sharedStats.updateTimestamp < timestamp
    · simp only [if_pos hshared]
      exact ⟨_, rfl, rfl⟩
    · simp only [if_neg hshared]
      exact ⟨_, rfl, rfl⟩

/-- In a running session a `Message` reaches each live player but the sender exactly once, and an accepted
    forced `Update` each live player, if and only if the iteration meets no departed player before a live
    one. -/
theorem relays_reach_live_iff (h : Reachable accepts a) (hrun : a.state = .running) (now : Int)
    (senderAddress : Address) :
    (∀ sender data : String,
      (recipients (fun p => p = .json (.message sender data))
        (a.receive accepts now senderAddress (.json (.message sender data))).2).Perm (addresses (a.others sender)) ↔
      DepartedLast (a.others sender)) ∧
    (∀ (playerName privateData : String) (sharedData : Option String) (timestamp : Int) (player : PlayerStatistics),
      a.stats.lookup playerName = some (some player) → player.updateTimestamp < toLong timestamp →
      ((recipients Payload.isSessionState (a.receive accepts now senderAddress
        (.json (.update playerName timestamp true privateData sharedData))).2).Perm (addresses a.stats.values) ↔
      DepartedLast a.stats.values)) := by
  cases hstop : a.stopped with
  | true =>
    -- A stopped actor sends nothing, and nobody lives in it.
    have hdeparted := (h.stoppedEmpty hstop).1
    refine ⟨fun sender data => ?_, fun playerName _ _ _ player hlive _ => absurd hlive (hdeparted playerName player)⟩
    have hothers : ∀ player, some player ∉ a.others sender := by
      intro player hmem
      obtain ⟨⟨name, entry⟩, he, rfl⟩ := List.mem_map.mp hmem
      exact hdeparted name player (AList.lookup_eq_some_iff.mpr (List.mem_filter.mp he).1)
    obtain ⟨hnil, hlast⟩ := nobody_live hothers
    rw [hnil]
    refine iff_of_true ?_ hlast
    simp [receive, hstop, recipients]
  | false =>
    refine ⟨fun sender data => ?_, fun playerName privateData sharedData timestamp player hlive hnew => ?_⟩
    · rw [recipients_receive hstop fun _ => by simp]
      simp only [handle, hrun]
      exact recipients_sendEach_perm_iff (by simp)
    · rw [recipients_receive hstop fun _ => rfl]
      simp only [handle, hrun, BackendMessage.extract, handleRunning]
      obtain ⟨b, hstats, heffects⟩ := update_effects now senderAddress privateData sharedData hlive hnew
      -- The update changes no address and no null entry.
      have hsame : b.stats.values.map (Option.map (·.address)) = a.stats.values.map (Option.map (·.address)) := by
        rw [hstats]
        exact AList.map_values_replace hlive rfl
      rw [heffects, ← addresses_congr hsame, ← departedLast_congr hsame]
      exact recipients_sendEach_perm_iff rfl

/-- The session of three players in which `leaver` quits after all have become ready. -/
def departed (leaver : String) : SessionActor :=
  let receive := fun (a : SessionActor) (address : Address) (message : BackendMessage) =>
    (a.receive (fun _ => true) 0 address (.json message)).1
  receive (receive (receive (receive (create 0 ["a", "b", "c"]) 1 (.ready "a")) 2 (.ready "b")) 3 (.ready "c")) 0
    (.quit leaver)

theorem reachable_departed (leaver : String) : Reachable (fun _ => true) (departed leaver) :=
  ((((Reachable.create 0 ["a", "b", "c"]).receive 0 1 _).receive 0 2 _).receive 0 3 _).receive 0 0 _

theorem relays_reach_live_last :
    (recipients (fun p => p = .json (.message "a" "x"))
      ((departed "c").receive (fun _ => true) 0 1 (.json (.message "a" "x"))).2).Perm [2] ∧
    (recipients Payload.isSessionState
      ((departed "c").receive (fun _ => true) 0 1 (.json (.update "a" 5 true "x" none))).2).Perm [1, 2] :=
  have hrelays := relays_reach_live_iff (reachable_departed "c") (by decide) 0 1
  ⟨(hrelays.1 "a" "x").mpr (by decide), (hrelays.2 "a" "x" none 5 ⟨1, 0, "", 0, false⟩ (by decide) (by decide)).mpr
    (by decide)⟩

/-- After the second of three players has quit, the third gets neither relay. -/
theorem relays_miss_live :
    ¬∀ (accepts : Int → Bool) (a : SessionActor), Reachable accepts a → a.state = .running →
      ∀ (now : Int) (senderAddress : Address),
      (∀ sender data : String,
        (recipients (fun p => p = .json (.message sender data))
          (a.receive accepts now senderAddress (.json (.message sender data))).2).Perm
          (addresses (a.others sender))) ∧
      (∀ (playerName privateData : String) (sharedData : Option String) (timestamp : Int)
        (player : PlayerStatistics),
        a.stats.lookup playerName = some (some player) → player.updateTimestamp < toLong timestamp →
        (recipients Payload.isSessionState (a.receive accepts now senderAddress
          (.json (.update playerName timestamp true privateData sharedData))).2).Perm (addresses a.stats.values)) := by
  intro h
  have := (h _ _ (reachable_departed "b") (by decide) 0 1).1 "a" "x"
  exact absurd this (by decide)

end SessionActor

end MultiSlider
