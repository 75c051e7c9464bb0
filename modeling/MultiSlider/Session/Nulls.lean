import MultiSlider.Session.Relay

/-! When `receive` meets a `null` player. A player who has not joined or has departed is a `null` entry of
    the map that all handlers read. `Update`, `RequestSync`, `Quit` and the keep-alive task test for it;
    `KeepAlive`, `Message` and the loop of a forced `Update` do not. -/

namespace MultiSlider

/-- The delay of a `RequestSync` is one that the scheduler takes. -/
def BackendMessage.Representable (accepts : Int → Bool) : BackendMessage → Prop
  | .requestSync _ delay _ _ => accepts delay = true
  | _ => True

namespace SessionActor

/-- `receive` ends in the branch that catches exceptions. -/
def raises (accepts : Int → Bool) (a : SessionActor) (now : Int) (senderAddress : Address) : Payload → Bool
  | .json message => !a.stopped && (a.handle accepts now senderAddress (.json message) message.extract).raised
  | .text _ => !a.stopped

/-- Handling the message touches a `null` entry. -/
def MeetsNull (a : SessionActor) : BackendMessage → Prop
  | .keepAlive (some playerName) _ => a.state ≠ .zombie ∧ a.stats.lookup playerName = some none
  | .message sender _ => a.state = .running ∧ none ∈ a.others sender
  | .update playerName timestamp forceBroadcast _ _ => a.state = .running ∧ forceBroadcast = true ∧
    none ∈ a.stats.values ∧
    ∃ player, a.stats.lookup playerName = some (some player) ∧ player.updateTimestamp < timestamp
  | _ => False

variable {accepts : Int → Bool} {a : SessionActor} {now : Int} {senderAddress : Address}

/-- The answer of the branch that catches exceptions is the last effect exactly where the handler raised. -/
theorem receive_raises (raw : Payload) : ∃ effects, (a.receive accepts now senderAddress raw).2 =
    if a.raises accepts now senderAddress raw then effects ++ [.send (.text responseSuck) senderAddress]
    else effects := by
  cases hstopped : a.stopped with
  | true =>
    refine ⟨[], ?_⟩
    cases raw <;> simp [receive, raises, hstopped]
  | false =>
    cases raw with
    | text raw => exact ⟨[], by simp [receive, raises, hstopped, raise]⟩
    | json message =>
      refine ⟨(a.handle accepts now senderAddress (.json message) message.extract).effects, ?_⟩
      simp only [receive, raises, hstopped, Bool.false_eq_true, if_false, Bool.not_false, Bool.true_and]
      split
      · rfl
      · rfl

/-! ### The handlers -/

theorem sendEach_raised {payload : Payload} {players : List (Option PlayerStatistics)} :
    (sendEach payload players).2 = true ↔ none ∈ players := by
  induction players with
  | nil => simp [sendEach]
  | cons entry players ih =>
    cases entry with
    | none => simp [sendEach]
    | some player => simpa [sendEach] using ih

/-- All have joined when `Start` is sent. -/
theorem readyWaiting_raised (playerName : String) : (a.readyWaiting now senderAddress playerName).raised = false := by
  unfold readyWaiting
  split
  · dsimp only
    split
    · rfl
    · rename_i hfull
      refine Bool.eq_false_iff.mpr fun hraised => hfull (List.any_eq_true.mpr ⟨none, ?_, rfl⟩)
      exact sendEach_raised.mp hraised
  · rfl

theorem touch_raised {playerName : Option String} : (a.touch now playerName).raised = true ↔
    ∃ name, playerName = some name ∧ a.stats.lookup name = some none := by
  cases playerName with
  | none => simp [touch, done]
  | some name =>
    cases hentry : a.stats.lookup name with
    | none => simp [touch, done, hentry]
    | some entry =>
      cases entry with
      | none => simp [touch, raise, hentry]
      | some player => simp [touch, done, hentry]

theorem relay_raised {raw : Payload} {sender : String} :
    (a.relay raw sender).raised = true ↔ none ∈ a.others sender := sendEach_raised

/-- The loop of a forced `Update` runs over the map in which the sender's entry has been stored again. -/
theorem update_raised {playerName privateData : String} {timestamp : Int} {forceBroadcast : Bool}
    {sharedData : Option String} :
    (a.update now senderAddress playerName timestamp forceBroadcast privateData sharedData).raised = true ↔
      forceBroadcast = true ∧ none ∈ a.stats.values ∧
        ∃ player, a.stats.lookup playerName = some (some player) ∧ player.updateTimestamp < timestamp := by
  cases hentry : a.stats.lookup playerName with
  | none => simp [update, done, hentry]
  | some entry =>
    cases entry with
    | none => simp [update, done, hentry]
    | some player =>
      by_cases hnewer : player.updateTimestamp < timestamp
      · cases forceBroadcast with
        | false => simp [update, done, hentry, hnewer]
        | true =>
          obtain ⟨b, hstats, -⟩ := update_effects now senderAddress privateData sharedData hentry hnewer
          -- The loop runs over the entries after the update of the sender's, which is not null before or after.
          have hraised : (a.update now senderAddress playerName timestamp true privateData sharedData).raised = true ↔
              none ∈ (a.stats.replace playerName
                (some { player with updateTimestamp := timestamp, privateData, lastPingTime := now })).values := by
            simp only [update, hentry, if_pos hnewer, if_true]
            rw [sendEach_raised]
            cases sharedData with
            | none => exact Iff.rfl
            | some shared =>
              dsimp only
              split
              · exact Iff.rfl
              · exact Iff.rfl
          have hnull : ∀ entry : Option PlayerStatistics, entry = none ↔ entry.isNone = true := by simp
          have hsame := AList.map_values_replace (f := Option.isNone)
            (x := some { player with updateTimestamp := timestamp, privateData, lastPingTime := now }) hentry rfl
          have hvalues : ∀ l : List (Option PlayerStatistics), none ∈ l ↔ true ∈ l.map Option.isNone := by
            intro l
            simp [List.mem_map]
          rw [hraised, hvalues, hsame, ← hvalues]
          simp [hnewer]
      · simp [update, done, hentry, hnewer]

theorem requestSync_raised {playerName : String} {delay syncId seqIdx : Int} (hdelay : accepts delay = true) :
    (a.requestSync accepts senderAddress playerName delay syncId seqIdx).raised = false := by
  unfold requestSync
  split
  · cases hack : a.checkAcknowlegment seqIdx playerName with
    | none => rfl
    | some b =>
      unfold checkAcknowlegment at hack
      cases hfound : a.seqStats playerName with
      | none => simp [hfound] at hack
      | some info =>
        simp only [hfound] at hack
        obtain ⟨info', -, rfl⟩ := Option.map_eq_some_iff.mp hack
        simp only [Function.update_self, done]
  · rfl

/-- Handling a well-formed message raises exactly if it meets a `null` entry. -/
theorem handle_raised_iff {raw : Payload} {message : BackendMessage} (hdelay : message.Representable accepts) :
    (a.handle accepts now senderAddress raw message).raised = true ↔ a.MeetsNull message := by
  unfold handle
  cases hstate : a.state with
  | waiting =>
    cases message with
    | ready playerName => simp [handleWaiting, readyWaiting_raised, MeetsNull]
    | keepAlive playerName timestamp =>
      refine touch_raised.trans ?_
      cases playerName <;> simp [MeetsNull, hstate]
    | _ => simp [handleWaiting, done, MeetsNull, hstate]
  | running =>
    cases message with
    | update playerName timestamp forceBroadcast privateData sharedData =>
      refine update_raised.trans ?_
      simp [MeetsNull, hstate]
    | message sender data =>
      refine relay_raised.trans ?_
      simp [MeetsNull, hstate]
    | keepAlive playerName timestamp =>
      refine touch_raised.trans ?_
      cases playerName <;> simp [MeetsNull, hstate]
    | requestSync playerName delay syncId seqIdx =>
      simp [handleRunning, requestSync_raised (a := a) hdelay, MeetsNull]
    | quit playerName => simp [handleRunning, quit, done, MeetsNull]
    | _ => simp [handleRunning, done, MeetsNull]
  | zombie =>
    cases message with
    | keepAlive playerName timestamp => cases playerName <;> simp [done, MeetsNull, hstate]
    | _ => simp [done, MeetsNull, hstate]

/-! ### Every message in every state -/

/-- A well-formed message is answered by the branch that catches exceptions if and only if it is a `KeepAlive`
    of a `null` player, a `Message` while another player is `null`, or a forced `Update` that is accepted while
    a player is `null`. -/
theorem raises_iff_meetsNull (a : SessionActor) (now : Int) (senderAddress : Address) (message : BackendMessage)
    (hdelay : message.extract.Representable accepts) :
    a.raises accepts now senderAddress (.json message) = true ↔ a.stopped = false ∧ a.MeetsNull message.extract := by
  unfold raises
  rw [Bool.and_eq_true, Bool.not_eq_true', handle_raised_iff hdelay]

theorem raises_iff_meetsNull_departed :
    (departed "b").raises (fun _ => true) 0 1 (.json (.message "a" "x")) = true ↔
      (departed "b").stopped = false ∧ (departed "b").MeetsNull (.message "a" "x") :=
  raises_iff_meetsNull (departed "b") 0 1 (.message "a" "x") trivial

/-- A player's `KeepAlive` before its `Ready` raises. -/
theorem early_keepAlive_raises :
    ¬∀ (accepts : Int → Bool) (a : SessionActor), Reachable accepts a →
      ∀ (now : Int) (senderAddress : Address) (message : BackendMessage), message.extract.Representable accepts →
        a.raises accepts now senderAddress (.json message) = false := by
  intro h
  have hnever := h (fun _ => true) (create 0 ["a", "b"]) (.create 0 ["a", "b"]) 0 1 (.keepAlive (some "a") 0) trivial
  exact absurd hnever (by decide)

end SessionActor

end MultiSlider
