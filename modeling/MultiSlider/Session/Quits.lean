import MultiSlider.Session.Abandoned

/-! Who is told of a departure. `quitImpl` removes a player once, and does nothing for one that has departed or was
    never there; the loop of `Quit` that tells the others stands after it and not under its test. A `Quit` that comes
    again is announced again, and so is one that names nobody in the session. -/

namespace MultiSlider
namespace SessionActor

/-- The live players to whose addresses the event sends `Quit(playerName)`. -/
def told (accepts : Int → Bool) (playerName : String) (a : SessionActor) (e : Event) : List String :=
  let r := a.react accepts e
  (r.1.stats.entries.filter fun entry =>
    entry.2.any fun player => .send (.json (.quit playerName)) player.address ∈ r.2).map (·.1)

/-- Where a player is reached while it is live. -/
def addressOf (a : SessionActor) (name : String) : Option Address := (a.stats.lookup name).join.map (·.address)

/-- Each player is told at most once that a player has quit, by one datagram, and only of a player that was live when
    its `Quit` was handled. -/
structure QuitsOnce (accepts : Int → Bool) (a : SessionActor) (events : List Event) : Prop where
  one : Machine.Along (step accepts) (fun b e => ∀ playerName,
    (recipients (· = .json (.quit playerName)) (b.react accepts e).2).map some =
      (b.told accepts playerName e).map (b.step accepts e).addressOf) a events
  once : ∀ playerName name, (Machine.outputs (step accepts) (told accepts playerName) a events).count name ≤ 1
  departed : Machine.Along (step accepts) (fun b e => ∀ playerName,
    b.told accepts playerName e ≠ [] → ∃ player, b.Live playerName player) a events

/-- The condition on an event: a `Quit` names a live player, or it comes from where all live players are. -/
def QuitsLive (a : SessionActor) : Event → Prop
  | .receive _ senderAddress (.json (.quit playerName)) => (∃ player, a.Live playerName player) ∨
    ∀ name player, a.Live name player → player.address = senderAddress
  | _ => True

variable {accepts : Int → Bool} {a : SessionActor} {now : Int} {senderAddress address : Address}
  {playerName name : String}

/-! ### One event -/

/-- Nothing but the handling of a `Quit` sends one. -/
theorem quit_of_sends {e : Event} (h : .send (.json (.quit playerName)) address ∈ (a.react accepts e).2) :
    ∃ now senderAddress, e = .receive now senderAddress (.json (.quit playerName)) := by
  cases e with
  | receive now senderAddress raw =>
    rcases receive_causes h with heq | ⟨message, rfl, hcauses⟩
    · cases heq
    · cases message with
      | quit playerName' =>
        cases hcauses with
        | quit => exact ⟨now, senderAddress, rfl⟩
      | _ => cases hcauses
  | keepAlive now =>
    rcases keepAlive_effects h with ⟨sessionId, heq⟩ | ⟨address', heq⟩
    · cases heq
    · cases heq

theorem not_stopped_of_effect (hempty : a.StoppedEmpty) {e : Event} {effect : Effect}
    (h : effect ∈ (a.react accepts e).2) : a.stopped = false := by
  refine Bool.eq_false_iff.mpr fun hstopped => ?_
  rw [react_of_stopped hempty hstopped] at h
  cases h

/-- The addresses that a `Quit` is relayed to are those of live players elsewhere than its sender. -/
theorem sends_quit_iff (hstopped : a.stopped = false) (running : a.state = .running) :
    .send (.json (.quit playerName)) address ∈
        (a.react accepts (.receive now senderAddress (.json (.quit playerName)))).2 ↔
      address ≠ senderAddress ∧ ∃ name player, (a.quitImpl playerName).1.Live name player ∧
        player.address = address := by
  rw [react_quit accepts now senderAddress hstopped running playerName, List.mem_append]
  constructor
  · rintro (h | h)
    · cases quitImpl_effects h
    · obtain ⟨player, hplayer, heq⟩ := List.mem_map.mp h
      cases heq
      obtain ⟨hlive, haway⟩ := List.mem_filter.mp hplayer
      obtain ⟨name, hname⟩ := AList.mem_values.mp (List.reduceOption_mem_iff.mp hlive)
      exact ⟨of_decide_eq_true haway, name, player, hname, rfl⟩
  · rintro ⟨haway, name, player, hlive, rfl⟩
    refine Or.inr (List.mem_map.mpr ⟨player, List.mem_filter.mpr ⟨?_, decide_eq_true haway⟩, rfl⟩)
    exact List.reduceOption_mem_iff.mpr (AList.mem_values.mpr ⟨name, hlive⟩)

theorem mem_told_iff {e : Event} : name ∈ a.told accepts playerName e ↔ ∃ player,
    (a.step accepts e).Live name player ∧ .send (.json (.quit playerName)) player.address ∈ (a.react accepts e).2 := by
  simp only [told, List.mem_map, List.mem_filter, Option.any_eq_true, decide_eq_true_eq]
  constructor
  · rintro ⟨⟨name, entry⟩, ⟨hentry, player, rfl, hsent⟩, rfl⟩
    exact ⟨player, AList.lookup_eq_some_iff.mpr hentry, hsent⟩
  · rintro ⟨player, hlive, hsent⟩
    exact ⟨⟨name, some player⟩, ⟨AList.lookup_eq_some_iff.mp hlive, player, rfl, hsent⟩, rfl⟩

/-- An event tells a player of a departure at most once. -/
theorem told_nodup (e : Event) : (a.told accepts playerName e).Nodup :=
  (a.step accepts e).stats.keys_nodup.sublist (List.filter_sublist.map _)

theorem told_eq_nil_of_silent {e : Event}
    (h : ∀ address, .send (.json (.quit playerName)) address ∉ (a.react accepts e).2) :
    a.told accepts playerName e = [] := by
  rw [List.eq_nil_iff_forall_not_mem]
  intro name hname
  obtain ⟨player, -, hsent⟩ := mem_told_iff.mp hname
  exact h player.address hsent

/-- The live players that have the property, by their names and by their addresses. -/
theorem addressOf_filter (p : PlayerStatistics → Bool) :
    ((a.livePlayers.filter p).map (·.address)).map some =
      ((a.stats.entries.filter fun entry => entry.2.any p).map (·.1)).map a.addressOf := by
  have hall : ∀ es : List (Sigma fun _ : String => Option PlayerStatistics), (∀ entry ∈ es, entry ∈ a.stats.entries) →
      (((es.map (·.2)).reduceOption.filter p).map (·.address)).map some =
        ((es.filter fun entry => entry.2.any p).map (·.1)).map a.addressOf := by
    intro es
    induction es with
    | nil => exact fun _ => rfl
    | cons entry es ih =>
      intro hes
      obtain ⟨hentry, hrest⟩ := List.forall_mem_cons.mp hes
      obtain ⟨name, entry⟩ := entry
      cases entry with
      | none => simpa using ih hrest
      | some player =>
        have haddress : a.addressOf name = some player.address := by
          unfold addressOf
          rw [AList.lookup_eq_some_iff.mpr hentry]
          rfl
        cases hp : p player with
        | true => simpa [hp, haddress] using ih hrest
        | false => simpa [hp] using ih hrest
  exact hall a.stats.entries fun _ hentry => hentry

variable (accepts now senderAddress playerName) in
/-- Each live player elsewhere than the sender is told. -/
theorem told_quit (hstopped : a.stopped = false) (running : a.state = .running) :
    a.told accepts playerName (.receive now senderAddress (.json (.quit playerName))) =
      ((a.quitImpl playerName).1.stats.entries.filter fun entry =>
        entry.2.any (·.address ≠ senderAddress)).map (·.1) := by
  have hsession := congrArg Prod.fst (react_quit accepts now senderAddress hstopped running playerName)
  unfold told
  dsimp only
  rw [hsession]
  refine congrArg (List.map _) (List.filter_congr fun entry hentry => ?_)
  obtain ⟨name, entry⟩ := entry
  cases entry with
  | none => rfl
  | some player =>
    have hlive : (a.quitImpl playerName).1.Live name player := AList.lookup_eq_some_iff.mpr hentry
    simp only [Option.any_some]
    refine decide_eq_decide.mpr ((sends_quit_iff hstopped running).trans ?_)
    exact and_iff_left ⟨name, player, hlive, rfl⟩

theorem recipients_quit (hstopped : a.stopped = false) (running : a.state = .running) :
    recipients (· = .json (.quit playerName))
        (a.react accepts (.receive now senderAddress (.json (.quit playerName)))).2 =
      ((a.quitImpl playerName).1.livePlayers.filter (·.address ≠ senderAddress)).map (·.address) := by
  have hnone : recipients (· = .json (.quit playerName)) (a.quitImpl playerName).2 = [] := by
    refine List.filterMap_eq_nil_iff.mpr fun e he => ?_
    rw [quitImpl_effects he]
  rw [react_quit accepts now senderAddress hstopped running playerName]
  unfold recipients at hnone ⊢
  rw [List.filterMap_append, hnone, List.nil_append, List.filterMap_map]
  simp

/-- The datagrams of an event that announce a departure go to the players told, one to each. -/
theorem one_told (hempty : a.StoppedEmpty) (running : a.state = .running) (e : Event) :
    (recipients (· = .json (.quit playerName)) (a.react accepts e).2).map some =
      (a.told accepts playerName e).map (a.step accepts e).addressOf := by
  by_cases hsends : ∃ address, .send (.json (.quit playerName)) address ∈ (a.react accepts e).2
  · obtain ⟨address, hsends⟩ := hsends
    obtain ⟨now, senderAddress, rfl⟩ := quit_of_sends hsends
    have hstopped := not_stopped_of_effect hempty hsends
    have hsession := congrArg Prod.fst (react_quit accepts now senderAddress hstopped running playerName)
    unfold step
    rw [recipients_quit hstopped running, told_quit accepts now senderAddress playerName hstopped running, hsession]
    exact addressOf_filter _
  · have hsilent : ∀ address, .send (.json (.quit playerName)) address ∉ (a.react accepts e).2 :=
      fun address h => hsends ⟨address, h⟩
    have hnone : recipients (· = .json (.quit playerName)) (a.react accepts e).2 = [] := by
      refine List.filterMap_eq_nil_iff.mpr fun effect heffect => ?_
      cases effect with
      | send payload address =>
        refine if_neg fun heq => ?_
        rw [decide_eq_true_eq] at heq
        exact hsilent address (heq ▸ heffect)
      | schedule => rfl
      | closeSession => rfl
    rw [hnone, told_eq_nil_of_silent hsilent]
    rfl

/-! ### Departures -/

/-- `quitImpl` does nothing for a player that is not live. -/
theorem quitImpl_of_not_live (h : ∀ player, ¬a.Live playerName player) : a.quitImpl playerName = (a, []) := by
  unfold quitImpl
  split
  · rename_i player hlive
    exact absurd hlive (h player)
  · rfl

/-- An event tells of live players only, exactly if it meets the condition. -/
theorem told_live_iff (hempty : a.StoppedEmpty) (running : a.state = .running) (e : Event) :
    (∀ playerName, a.told accepts playerName e ≠ [] → ∃ player, a.Live playerName player) ↔ a.QuitsLive e := by
  constructor
  · intro h
    unfold QuitsLive
    split
    · rename_i now senderAddress playerName
      by_contra hnot
      rw [not_or] at hnot
      obtain ⟨hgone, haway⟩ := hnot
      push Not at hgone haway
      obtain ⟨name, player, hlive, haway⟩ := haway
      have hstopped := hempty.not_stopped hlive
      have hsession := quitImpl_of_not_live hgone
      refine absurd (h playerName ?_) fun ⟨player, hlive⟩ => hgone player hlive
      -- Another live player would be told of the one who has long gone.
      refine List.ne_nil_of_mem (a := name) (mem_told_iff.mpr ⟨player, ?_, ?_⟩)
      · unfold step
        rw [react_quit accepts now senderAddress hstopped running playerName, hsession]
        exact hlive
      · refine (sends_quit_iff hstopped running).mpr ⟨haway, name, player, ?_, rfl⟩
        rw [hsession]
        exact hlive
    · trivial
  · intro hcond playerName htold
    obtain ⟨name, hname⟩ := List.exists_mem_of_ne_nil _ htold
    obtain ⟨player, hlive, hsends⟩ := mem_told_iff.mp hname
    obtain ⟨now, senderAddress, rfl⟩ := quit_of_sends hsends
    rcases hcond with hlive | hnear
    · exact hlive
    · by_contra hgone
      have hstopped := not_stopped_of_effect hempty hsends
      obtain ⟨haway, name', player', hlive', heq⟩ := (sends_quit_iff hstopped running).mp hsends
      rw [quitImpl_of_not_live fun player hlive => hgone ⟨player, hlive⟩] at hlive'
      exact haway (heq.symm.trans (hnear name' player' hlive'))

/-- Who is told of has departed with the event. -/
theorem not_live_of_told (hempty : a.StoppedEmpty) (running : a.state = .running) {e : Event}
    (h : a.told accepts playerName e ≠ []) (player : PlayerStatistics) :
    ¬(a.step accepts e).Live playerName player := by
  obtain ⟨name, hname⟩ := List.exists_mem_of_ne_nil _ h
  obtain ⟨player', -, hsends⟩ := mem_told_iff.mp hname
  obtain ⟨now, senderAddress, rfl⟩ := quit_of_sends hsends
  exact not_live_of_quits hempty running (decide_eq_true rfl)

/-! ### Whole runs -/

/-- After a player has departed, a run that meets the condition does not tell of it. -/
theorem outputs_told_of_gone {events : List Event} (hempty : a.StoppedEmpty) (running : a.state = .running)
    (hcond : Machine.Along (step accepts) QuitsLive a events) (hgone : ∀ player, ¬a.Live playerName player) :
    Machine.outputs (step accepts) (told accepts playerName) a events = [] := by
  induction events generalizing a with
  | nil => rfl
  | cons e events ih =>
    have hnil : a.told accepts playerName e = [] := by
      by_contra htold
      obtain ⟨player, hlive⟩ := (told_live_iff hempty running e).mpr hcond.1 playerName htold
      exact hgone player hlive
    have hstill : ∀ player, ¬(a.step accepts e).Live playerName player := by
      intro player hlive
      obtain ⟨before, hbefore⟩ := live_of_step running hlive
      exact hgone before hbefore
    rw [Machine.outputs, hnil, List.nil_append]
    exact ih (hempty.step accepts e) (step_running running e) hcond.2 hstill

/-- In a run that meets the condition each player is told at most once of each departure. -/
theorem outputs_told_nodup {events : List Event} (hempty : a.StoppedEmpty) (running : a.state = .running)
    (hcond : Machine.Along (step accepts) QuitsLive a events) :
    (Machine.outputs (step accepts) (told accepts playerName) a events).Nodup := by
  induction events generalizing a with
  | nil => exact List.nodup_nil
  | cons e events ih =>
    have hempty' := hempty.step accepts e
    have running' : (a.step accepts e).state = .running := step_running running e
    rw [Machine.outputs]
    by_cases htold : a.told accepts playerName e = []
    · rw [htold, List.nil_append]
      exact ih hempty' running' hcond.2
    · rw [outputs_told_of_gone hempty' running' hcond.2 (not_live_of_told hempty running htold), List.append_nil]
      exact told_nodup e

/-- In every run of a running session each player is told of each departure at most once, and of departures only, if
    and only if each `Quit` names a live player, or comes from the address of all live players. -/
theorem quits_once_iff (h : Reachable accepts a) (running : a.state = .running) (events : List Event) :
    QuitsOnce accepts a events ↔ Machine.Along (step accepts) QuitsLive a events := by
  have hempty := h.stoppedEmpty
  have keep : ∀ (b : SessionActor) (e : Event), b.StoppedEmpty ∧ b.state = .running →
      (b.step accepts e).StoppedEmpty ∧ (b.step accepts e).state = .running :=
    fun b e hb => ⟨hb.1.step accepts e, step_running hb.2 e⟩
  have hiff : Machine.Along (step accepts) (fun b e => ∀ playerName,
      b.told accepts playerName e ≠ [] → ∃ player, b.Live playerName player) a events ↔
      Machine.Along (step accepts) QuitsLive a events :=
    Machine.along_congr keep (fun b e hb => told_live_iff hb.1 hb.2 e) ⟨hempty, running⟩
  constructor
  · intro honce
    exact hiff.mp honce.departed
  · intro hcond
    refine ⟨?_, fun playerName name => ?_, hiff.mpr hcond⟩
    · exact hcond.of_invariant (fun b e hb _ => keep b e hb) (fun b e hb _ _ => one_told hb.1 hb.2 e) ⟨hempty, running⟩
    · exact List.nodup_iff_count_le_one.mp (outputs_told_nodup hempty running hcond) name

/-- A session of three players that has just started. -/
def trio : SessionActor := Machine.run (step fun _ => true) (create 0 ["a", "b", "c"])
  [.receive 0 1 (.json (.ready "a")), .receive 0 2 (.json (.ready "b")), .receive 0 3 (.json (.ready "c"))]

theorem quits_once_first : QuitsOnce (fun _ => true) trio [.receive 0 2 (.json (.quit "b")), .keepAlive 20000] := by
  refine (quits_once_iff ((Reachable.create 0 ["a", "b", "c"]).run _) (by decide +kernel) _).mpr
    ⟨Or.inl ?_, trivial, trivial⟩
  exact ⟨⟨2, 0, "", 0, false⟩, by unfold Live; decide +kernel⟩

/-- The second copy of a `Quit` is announced again. -/
theorem repeated_quit_announced : ¬∀ (accepts : Int → Bool) (a : SessionActor), Reachable accepts a →
    a.state = .running → ∀ events, QuitsOnce accepts a events := by
  intro h
  have honce := (h (fun _ => true) trio ((Reachable.create 0 ["a", "b", "c"]).run _) (by decide +kernel)
    [.receive 0 2 (.json (.quit "b")), .receive 0 2 (.json (.quit "b"))]).once "b" "a"
  revert honce
  decide +kernel

end SessionActor

end MultiSlider
