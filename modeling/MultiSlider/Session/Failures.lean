import MultiSlider.Session.Nulls

/-! What a message that ends in the branch that catches exceptions leaves behind. The handlers of `KeepAlive` and
    `Message` raise before they change anything; a forced `Update` has been stored when the loop over the map
    meets a `null` entry, and a numbered `RequestSync` has passed the filter when its delay is refused. -/

namespace MultiSlider

namespace SessionActor

/-- The parts of a session that its handlers change are the same in both. -/
structure Same (a a' : SessionActor) : Prop where
  state : a'.state = a.state
  stats : a'.stats = a.stats
  sharedStats : a'.sharedStats = a.sharedStats
  seqStats : a'.seqStats = a.seqStats

/-- The handler of the message changes the session, and raises after that: a forced `Update` that is accepted
    while a player is `null`, or a `RequestSync` that passes the filter with a delay that is refused. -/
def FailsMidway (accepts : Int → Bool) (a : SessionActor) : BackendMessage → Prop
  | .update playerName timestamp forceBroadcast _ _ => a.state = .running ∧ forceBroadcast = true ∧
    none ∈ a.stats.values ∧
    ∃ player, a.stats.lookup playerName = some (some player) ∧ player.updateTimestamp < timestamp
  | .requestSync playerName delay _ seqIdx => a.state = .running ∧ seqIdx < idxWrapModule ∧
    (∃ info, a.seqStats playerName = some info ∧ info.Fresh seqIdx) ∧ accepts delay = false
  | _ => False

variable {accepts : Int → Bool} {a : SessionActor} {now : Int} {senderAddress : Address}

/-! ### The two handlers -/

/-- The timestamp of its player has changed. -/
theorem update_changes {playerName privateData : String} {timestamp : Int} {forceBroadcast : Bool}
    {sharedData : Option String} {player : PlayerStatistics}
    (live : a.stats.lookup playerName = some (some player)) (newer : player.updateTimestamp < timestamp) :
    (a.update now senderAddress playerName timestamp forceBroadcast privateData sharedData).actor.stats ≠
      a.stats := by
  rw [update_actor live, if_pos newer]
  intro heq
  have hlookup := congrArg (·.lookup playerName) heq
  simp only [AList.lookup_replace_self (AList.mem_of_lookup live), live, Option.some.injEq] at hlookup
  have hstamp := congrArg (·.updateTimestamp) hlookup
  dsimp only at hstamp
  omega

/-- A `KeepAlive` that raises has found no player to change. -/
theorem touch_raised_keeps {playerName : Option String} (hraised : (a.touch now playerName).raised = true) :
    (a.touch now playerName).actor = a := by
  obtain ⟨name, rfl, hnull⟩ := touch_raised.mp hraised
  simp [touch, hnull, raise]

/-- A request that is not taken leaves the session as it is. -/
theorem requestSync_keeps {playerName : String} {delay syncId seqIdx : Int}
    (hold : ¬(seqIdx < idxWrapModule ∧ ∃ info, a.seqStats playerName = some info ∧ info.Fresh seqIdx)) :
    (a.requestSync accepts senderAddress playerName delay syncId seqIdx).actor = a := by
  unfold requestSync
  split
  · rename_i hrange
    have hnone : a.checkAcknowlegment seqIdx playerName = none := by
      unfold checkAcknowlegment
      cases hfound : a.seqStats playerName with
      | none => rfl
      | some info =>
        have hstale : ¬(info.checkAcknowlegment seqIdx).isSome := fun hsome =>
          hold ⟨hrange, info, hfound, MessagesSequenceInfo.checkAcknowlegment_isSome_iff.mp hsome⟩
        dsimp only
        rw [Option.not_isSome_iff_eq_none.mp hstale]
        rfl
    rw [hnone]
    rfl
  · split <;> rfl

variable (accepts senderAddress) in
/-- What a request that is taken does. -/
theorem requestSync_taken {playerName : String} (delay syncId : Int) {seqIdx : Int} {info : MessagesSequenceInfo}
    (hrange : seqIdx < idxWrapModule) (hfound : a.seqStats playerName = some info) (hfresh : info.Fresh seqIdx) :
    ∃ info' : MessagesSequenceInfo, info'.remoteSeqIdx = seqIdx ∧ info'.localSeqIdx = info.localSeqIdx ∧
      (a.requestSync accepts senderAddress playerName delay syncId seqIdx).actor =
        { a with seqStats := Function.update a.seqStats playerName (some (nextLocal info')) } ∧
      (a.requestSync accepts senderAddress playerName delay syncId seqIdx).raised = !accepts delay := by
  obtain ⟨info', hinfo'⟩ := Option.isSome_iff_exists.mp (MessagesSequenceInfo.checkAcknowlegment_isSome_iff.mpr hfresh)
  obtain ⟨hremote, hlocal⟩ := MessagesSequenceInfo.checkAcknowlegment_some hinfo'
  refine ⟨info', hremote, hlocal, ?_⟩
  have hcheck : a.checkAcknowlegment seqIdx playerName =
      some { a with seqStats := Function.update a.seqStats playerName (some info') } := by
    unfold checkAcknowlegment
    rw [hfound]
    dsimp only
    rw [hinfo']
    rfl
  unfold requestSync
  rw [if_pos hrange, hcheck]
  simp only [Function.update_self, Function.update_idem]
  cases accepts delay with
  | true => exact ⟨rfl, rfl⟩
  | false => exact ⟨rfl, rfl⟩

/-! ### Every message -/

variable (now senderAddress) in
/-- Such a message raises, and something has changed. -/
theorem FailsMidway.changes {message : BackendMessage} (h : a.FailsMidway accepts message) (raw : Payload) :
    (a.handle accepts now senderAddress raw message).raised = true ∧
      ¬a.Same (a.handle accepts now senderAddress raw message).actor := by
  cases message with
  | update playerName timestamp forceBroadcast data sharedData =>
    obtain ⟨running, force, hnull, player, live, newer⟩ := h
    have heq : a.handle accepts now senderAddress raw (.update playerName timestamp forceBroadcast data sharedData) =
        a.update now senderAddress playerName timestamp forceBroadcast data sharedData := by
      simp only [handle, running]
      rfl
    rw [heq]
    exact ⟨update_raised.mpr ⟨force, hnull, player, live, newer⟩, fun hsame => update_changes live newer hsame.stats⟩
  | requestSync playerName delay syncId seqIdx =>
    obtain ⟨running, hrange, ⟨info, hfound, hfresh⟩, hdelay⟩ := h
    have heq : a.handle accepts now senderAddress raw (.requestSync playerName delay syncId seqIdx) =
        a.requestSync accepts senderAddress playerName delay syncId seqIdx := by
      simp only [handle, running]
      rfl
    obtain ⟨info', hremote, -, hactor, hraised⟩ := requestSync_taken accepts senderAddress delay syncId
      hrange hfound hfresh
    rw [heq, hraised, hdelay]
    refine ⟨rfl, fun hsame => hfresh.1 ?_⟩
    have hinfo := congrFun hsame.seqStats playerName
    rw [hactor] at hinfo
    simp only [Function.update_self, hfound, Option.some.injEq] at hinfo
    rw [← hinfo]
    exact hremote
  | _ => exact h.elim

/-- Any other message that raises has changed nothing. -/
theorem handle_raised_keeps {raw : Payload} {message : BackendMessage} (h : ¬a.FailsMidway accepts message)
    (hraised : (a.handle accepts now senderAddress raw message).raised = true) :
    (a.handle accepts now senderAddress raw message).actor = a := by
  unfold handle at hraised ⊢
  cases hstate : a.state with
  | waiting =>
    simp only [hstate] at hraised ⊢
    cases message with
    | ready playerName =>
      simp only [handleWaiting] at hraised
      exact absurd hraised (by simp [readyWaiting_raised])
    | keepAlive playerName timestamp => exact touch_raised_keeps hraised
    | _ => rfl
  | running =>
    simp only [hstate] at hraised ⊢
    cases message with
    | update playerName timestamp forceBroadcast data sharedData =>
      exact absurd ⟨hstate, update_raised.mp hraised⟩ h
    | keepAlive playerName timestamp => exact touch_raised_keeps hraised
    | requestSync playerName delay syncId seqIdx =>
      refine requestSync_keeps fun htaken => h ⟨hstate, htaken.1, htaken.2, ?_⟩
      cases hdelay : accepts delay with
      | false => rfl
      | true =>
        simp only [handleRunning] at hraised
        exact absurd hraised (by simp [requestSync_raised hdelay])
    | _ => first | rfl | cases hraised
  | zombie => rfl

/-- A message that raises leaves the session as it was, and the same message sent again is handled as if it had
    not been sent before, unless it is one of the two that fail midway. -/
theorem failure_harmless_iff (accepts : Int → Bool) (a : SessionActor) (now : Int) (senderAddress : Address)
    (raw : Payload) :
    (a.raises accepts now senderAddress raw = true → a.Same (a.receive accepts now senderAddress raw).1 ∧
        ∀ later, (a.receive accepts now senderAddress raw).1.receive accepts later senderAddress raw =
          a.receive accepts later senderAddress raw) ↔
      ¬(a.stopped = false ∧ ∃ message, raw = .json message ∧ a.FailsMidway accepts message.extract) := by
  have harmless (h : (a.receive accepts now senderAddress raw).1 = a) :
      a.Same (a.receive accepts now senderAddress raw).1 ∧
        ∀ later, (a.receive accepts now senderAddress raw).1.receive accepts later senderAddress raw =
          a.receive accepts later senderAddress raw := by
    rw [h]
    exact ⟨⟨rfl, rfl, rfl, rfl⟩, fun _ => rfl⟩
  cases raw with
  | text raw =>
    refine iff_of_true (fun _ => harmless ?_) (fun ⟨_, message, heq, _⟩ => nomatch heq)
    unfold receive
    split <;> rfl
  | json message =>
    constructor
    · rintro h ⟨hstopped, message', heq, hfails⟩
      cases heq
      obtain ⟨hraised, hchanged⟩ := hfails.changes now senderAddress (.json message)
      refine hchanged ?_
      rw [← receive_actor hstopped]
      exact (h (by simp [raises, hstopped, hraised])).1
    · intro hnot hraises
      obtain ⟨hstopped, hraised⟩ : a.stopped = false ∧
          (a.handle accepts now senderAddress (.json message) message.extract).raised = true := by
        simpa [raises] using hraises
      refine harmless ?_
      rw [receive_actor hstopped]
      exact handle_raised_keeps (fun hfails => hnot ⟨hstopped, message, rfl, hfails⟩) hraised

/-- A request with a delay that the scheduler refuses is answered with `SUCK`, and yet it has been numbered: its
    retransmission is dropped without an answer. -/
theorem refused_delay_numbered :
    ¬∀ (accepts : Int → Bool) (a : SessionActor), Reachable accepts a → ∀ now senderAddress raw,
      a.raises accepts now senderAddress raw = true → a.Same (a.receive accepts now senderAddress raw).1 ∧
        ∀ later, (a.receive accepts now senderAddress raw).1.receive accepts later senderAddress raw =
          a.receive accepts later senderAddress raw := by
  intro h
  let accepts : Int → Bool := fun delay => delay ≤ 21474836470
  let request : Payload := .json (.requestSync "a" (2 ^ 40) 7 1)
  let a : SessionActor := ((create 0 ["a"]).receive accepts 0 1 (.json (.ready "a"))).1
  have hreach : Reachable accepts a := (Reachable.create 0 ["a"]).receive 0 1 _
  have hagain := (h accepts a hreach 0 1 request (by decide +kernel)).2 0
  have hdropped : ((a.receive accepts 0 1 request).1.receive accepts 0 1 request).2 = [] := by decide +kernel
  have hanswered : (a.receive accepts 0 1 request).2 = [.send (.text responseSuck) 1] := by decide +kernel
  rw [hagain, hanswered] at hdropped
  cases hdropped

end SessionActor

end MultiSlider
