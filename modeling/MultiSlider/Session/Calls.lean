import MultiSlider.Session.Net

/-! The client's object through its life: one method after another, each with the reading of the local clock that it
    gets, and what each of them can do to the clocks. Only an answer to `ClockSync` moves `mTimeShift`; what `startup`
    records as the last sign of the server, each round of `receive` renews. -/

namespace MultiSlider
namespace Session

/-- A call of a method. A wait of `startup` and a round of the loop of `receive` are calls of their own, and `poll` is
    what `receive` does after its loop. An empty datagram counts as none: `startup` takes it for a timeout, and the loop
    ends. -/
inductive Call where
  | startup (timeout : Nat)
  | startupTimeout
  | startupReceive (received : Payload)
  | broadcast (data sharedData : String) (forced : Bool)
  | say (message : String)
  | keepAlive
  | quit
  | syncSimple (syncId delay : Nat)
  | sync (syncId delay : Nat)
  | datagram (received : Payload)
  | poll
deriving DecidableEq, Repr

/-- A call at a reading of the local clock. The loop of `receive` does not run unless the session is started. -/
def act (s : Session) (now : Nat) : Call → Turn
  | .startup timeout => s.startup timeout
  | .startupTimeout => s.startupTimeout
  | .startupReceive received => s.startupReceive now received
  | .broadcast data sharedData forced => s.broadcast now data sharedData forced
  | .say message => s.say message
  | .keepAlive => s.keepAlive now
  | .quit => s.quit
  | .syncSimple syncId delay => s.syncSimple syncId delay
  | .sync syncId delay => (s.sync now syncId delay).1
  | .datagram received => if s.started then s.receiveDatagram now received else s.returns [] []
  | .poll => s.periodic now

/-- The object after a call. -/
def step (s : Session) (e : Nat × Call) : Session := (s.act e.1 e.2).session

/-- What a call sends. -/
def sendsOf (s : Session) (e : Nat × Call) : List Envelop := (s.act e.1 e.2).sent

/-- The callbacks that a call makes. -/
def callbacksOf (s : Session) (e : Nat × Call) : List Callback := (s.act e.1 e.2).callbacks

variable {s : Session} {now : Nat}

/-! ### A call of `receive` -/

/-- The rounds of `receive` as calls. -/
def rounds (arrivals : List (Nat × Payload)) : List (Nat × Call) := arrivals.map fun r => (r.1, .datagram r.2)

/-- A turn is the run of some calls. -/
structure IsRun (s : Session) (es : List (Nat × Call)) (t : Turn) : Prop where
  session : t.session = Machine.run step s es
  sent : t.sent = Machine.outputs step sendsOf s es
  callbacks : t.callbacks = Machine.outputs step callbacksOf s es

/-- The loop of `receive` is a run of rounds over the first of the datagrams in the socket. -/
theorem receiveLoop_run (messagesLimit : Nat) (arrivals : List (Nat × Payload)) (s : Session) :
    ∃ handled, handled <+: arrivals ∧ s.IsRun (rounds handled) (receiveLoop messagesLimit arrivals s) := by
  induction arrivals generalizing messagesLimit s with
  | nil => exact ⟨[], List.nil_prefix, by cases messagesLimit <;> exact ⟨rfl, rfl, rfl⟩⟩
  | cons arrival arrivals ih =>
    have none : ∃ handled, handled <+: arrival :: arrivals ∧ s.IsRun (rounds handled) (s.returns [] []) :=
      ⟨[], List.nil_prefix, rfl, rfl, rfl⟩
    cases messagesLimit with
    | zero => exact none
    | succ messagesLimit =>
      obtain ⟨now, received⟩ := arrival
      unfold receiveLoop
      split
      · rename_i hstarted
        have hact : s.act now (.datagram received) = s.receiveDatagram now received := if_pos hstarted.1
        dsimp only
        cases hfault : (s.receiveDatagram now received).fault with
        | none =>
          obtain ⟨handled, hprefix, hsession, hsent, hcallbacks⟩ := ih _ (s.receiveDatagram now received).session
          refine ⟨(now, received) :: handled, List.cons_prefix_cons.mpr ⟨rfl, hprefix⟩, ?_⟩
          have hstep : s.step (now, .datagram received) = (s.receiveDatagram now received).session :=
            congrArg Turn.session hact
          refine ⟨?_, ?_, ?_⟩
          · rw [rounds, List.map_cons, Machine.run_cons, hstep]
            exact hsession
          · rw [rounds, List.map_cons, Machine.outputs, sendsOf, hact, hstep]
            exact congrArg (_ ++ ·) hsent
          · rw [rounds, List.map_cons, Machine.outputs, callbacksOf, hact, hstep]
            exact congrArg (_ ++ ·) hcallbacks
        | some fault =>
          refine ⟨[(now, received)], List.cons_prefix_cons.mpr ⟨rfl, List.nil_prefix⟩, ?_⟩
          refine ⟨?_, ?_, ?_⟩
          · exact (congrArg Turn.session hact).symm
          · exact ((List.append_nil _).trans (congrArg Turn.sent hact)).symm
          · exact ((List.append_nil _).trans (congrArg Turn.callbacks hact)).symm
      · exact none

/-- A whole `receive` is a run of rounds, and what comes after its loop unless a round has thrown. -/
theorem receive_run (s : Session) (messagesLimit : Nat) (arrivals : List (Nat × Payload)) (now : Nat) :
    ∃ handled es, handled <+: arrivals ∧ (es = rounds handled ∨ es = rounds handled ++ [(now, .poll)]) ∧
      s.IsRun es (s.receive messagesLimit arrivals now) := by
  obtain ⟨handled, hprefix, hloop⟩ := receiveLoop_run messagesLimit arrivals s
  unfold receive
  dsimp only
  split
  · refine ⟨handled, _, hprefix, Or.inr rfl, ?_⟩
    refine ⟨?_, ?_, ?_⟩
    · rw [Machine.run_append, ← hloop.session]
      rfl
    · rw [Machine.outputs_append, ← hloop.session, ← hloop.sent]
      exact congrArg (_ ++ ·) (List.append_nil _).symm
    · rw [Machine.outputs_append, ← hloop.session, ← hloop.callbacks]
      exact congrArg (_ ++ ·) (List.append_nil _).symm
  · exact ⟨handled, _, hprefix, Or.inl rfl, hloop⟩

/-! ### The clocks -/

/-- An answer to the last `ClockSync`. -/
def Answers (s : Session) : Payload → Prop
  | .json (.clockSync id _ _) => narrowCast 8 id = some s.clockSyncId
  | _ => False

instance (s : Session) : (received : Payload) → Decidable (s.Answers received)
  | .json (.clockSync id _ _) => inferInstanceAs (Decidable (narrowCast 8 id = some s.clockSyncId))
  | .json (.ready _) | .json (.update _ _ _ _ _) | .json (.message _ _) | .json (.requestSync _ _ _ _)
  | .json (.quit _) | .json (.keepAlive _ _) | .json .start | .json (.sessionState _ _ _) | .json (.sync _ _)
  | .json (.ack _) | .text _ => isFalse id

/-- The server has been silent for too long, as `receive` measures it. -/
def TimedOut (s : Session) (now : Nat) : Prop :=
  s.getTimeSyncronizedMS now > (s.lastTimestamp + clientKeepAliveLimit) % 2 ^ 64

/-- `receive` finds the last synchronisation too old. -/
def SyncDue (s : Session) (now : Nat) : Prop :=
  s.getTimeSyncronizedMS now > (s.lastSyncTime + clockSyncTimeoutMs) % 2 ^ 64

instance (s : Session) (now : Nat) : Decidable (s.TimedOut now) := Nat.decLt _ _

instance (s : Session) (now : Nat) : Decidable (s.SyncDue now) := Nat.decLt _ _

/-- A turn that leaves the clocks alone, starts nothing and reports no timeout. -/
structure Still (s : Session) (t : Turn) : Prop where
  timeShift : t.session.timeShift = s.timeShift
  lastSyncTime : t.session.lastSyncTime = s.lastSyncTime
  clockSyncId : t.session.clockSyncId = s.clockSyncId
  lastTimestamp : t.session.lastTimestamp = s.lastTimestamp
  started : t.session.started = true → s.started = true
  noTimeout : ∀ name, .onQuit name true ∉ t.callbacks

theorem Still.returns_self {sent : List Envelop} {callbacks : List Callback}
    (h : ∀ name, .onQuit name true ∉ callbacks) : s.Still (s.returns sent callbacks) :=
  ⟨rfl, rfl, rfl, rfl, id, h⟩

theorem Still.throws_self {fault : Fault} : s.Still (s.throws fault) :=
  ⟨rfl, rfl, rfl, rfl, id, fun _ => List.not_mem_nil⟩

theorem Still.sends {method : String} {message : BackendMessage} : s.Still (s.sends method message) := by
  unfold Session.sends
  split
  · exact Still.returns_self fun _ => List.not_mem_nil
  · exact Still.throws_self

theorem Still.sync {syncId delay : Nat} : s.Still (s.sync now syncId delay).1 := by
  unfold Session.sync
  split
  · split
    · exact Still.returns_self fun _ => List.not_mem_nil
    · exact ⟨rfl, rfl, rfl, rfl, id, fun _ => List.not_mem_nil⟩
  · exact Still.throws_self

theorem Still.quit : s.Still s.quit := by
  unfold Session.quit
  split
  · exact ⟨rfl, rfl, rfl, rfl, fun h => absurd h Bool.false_ne_true, by simp [returns]⟩
  · exact Still.returns_self fun _ => List.not_mem_nil

theorem Still.startupTimeout : s.Still s.startupTimeout := by
  unfold Session.startupTimeout
  split
  · dsimp only
    split
    · exact ⟨rfl, rfl, rfl, rfl, id, fun _ => List.not_mem_nil⟩
    · exact ⟨rfl, rfl, rfl, rfl, id, fun _ => List.not_mem_nil⟩
  · dsimp only
    split
    · exact ⟨rfl, rfl, rfl, rfl, id, fun _ => List.not_mem_nil⟩
    · exact ⟨rfl, rfl, rfl, rfl, id, fun _ => List.not_mem_nil⟩
  · exact Still.returns_self fun _ => List.not_mem_nil

theorem Still.acknowledged {s' : Session} {ackIdx : Nat} (h : s.checkAcknowledgement ackIdx = some s')
    {callbacks : List Callback} (hcallbacks : ∀ name, .onQuit name true ∉ callbacks) {fault : Option Fault} :
    s.Still ⟨s', [], callbacks, fault⟩ := by
  obtain ⟨bits, rfl⟩ := checkAcknowledgement_some h
  exact ⟨rfl, rfl, rfl, rfl, id, hcallbacks⟩

theorem Still.receiveSync {syncId seqIdx : Int} : s.Still (s.receiveSync syncId seqIdx) := by
  unfold Session.receiveSync
  split
  · exact Still.throws_self
  · split
    · exact Still.returns_self fun _ => List.not_mem_nil
    · rename_i s' hs'
      have hself : s' = s ∨ ∃ ackIdx, s.checkAcknowledgement ackIdx = some s' := by
        split at hs'
        · exact Or.inl (Option.some.inj hs').symm
        · exact Or.inr ⟨_, hs'⟩
      rcases hself with rfl | ⟨ackIdx, hcheck⟩
      · split
        · exact Still.throws_self
        · exact Still.returns_self (by simp)
      · split
        · exact Still.acknowledged hcheck fun _ => List.not_mem_nil
        · exact Still.acknowledged hcheck (by simp)

theorem Still.receiveAck {seqIdx : Int} : s.Still (s.receiveAck seqIdx) := by
  unfold Session.receiveAck
  split
  · exact Still.throws_self
  · rename_i ackIdx _
    cases hcheck : s.checkAcknowledgement ackIdx with
    | none => exact Still.returns_self fun _ => List.not_mem_nil
    | some s' => exact Still.acknowledged hcheck fun _ => List.not_mem_nil

theorem Still.updatePing {timestamp : Nat} : s.Still ((s.updatePing now timestamp).returns [] []) := by
  unfold Session.updatePing
  split
  · dsimp only
    split
    · exact ⟨rfl, rfl, rfl, rfl, id, fun _ => List.not_mem_nil⟩
    · exact Still.returns_self fun _ => List.not_mem_nil
  · exact Still.returns_self fun _ => List.not_mem_nil

/-- Only an answer to the last `ClockSync` touches the clocks before `mLastTimestamp` is renewed. -/
theorem Still.dispatch {received : Payload} (h : ¬s.Answers received) : s.Still (s.dispatch now received) := by
  cases received with
  | text raw => exact Still.throws_self
  | json message =>
    cases message with
    | start => exact Still.returns_self (by simp)
    | sessionState data sharedData sharedTimestamp => exact Still.returns_self (by simp)
    | sync syncId seqIdx => exact Still.receiveSync
    | keepAlive playerName timestamp =>
      simp only [Session.dispatch]
      split
      · split
        · exact Still.throws_self
        · exact Still.updatePing
      · exact Still.returns_self fun _ => List.not_mem_nil
    | ack seqIdx => exact Still.receiveAck
    | clockSync id requestTime responseTime =>
      simp only [Session.dispatch, Session.receiveClockSync]
      split
      · exact Still.throws_self
      · rename_i id' hid
        rw [if_neg (fun heq => h (hid.trans (congrArg some heq.symm)))]
        exact Still.returns_self fun _ => List.not_mem_nil
    | quit player =>
      exact ⟨rfl, rfl, rfl, rfl, fun h => (Bool.and_eq_true_iff.mp h).1, by simp [Session.dispatch, returns]⟩
    | message sender message => exact Still.returns_self (by simp)
    | _ => exact Still.throws_self

/-- An answer to the last `ClockSync`: it is processed, or an assertion about its request time fails. -/
theorem receiveClockSync_answers {id requestTime responseTime : Int} (hid : narrowCast 8 id = some s.clockSyncId) :
    s.receiveClockSync now id requestTime responseTime =
      if requestTime < 0 ∨ 2 ^ 64 ≤ requestTime then s.throws .assertion
      else if s.getTimeSyncronizedMS now ≤ requestTime then
        { s with lastSyncTime := s.getTimeSyncronizedMS now }.throws .assertion
      else { s with
        lastSyncTime := s.getTimeSyncronizedMS now
        lastPing := (s.getTimeSyncronizedMS now - requestTime.toNat) / 2
        timeShift := toInt64 (s.timeShift + (responseTime - requestTime -
          ((s.getTimeSyncronizedMS now - requestTime.toNat) / 2 : Nat))) }.returns [] [] := by
  unfold receiveClockSync
  rw [hid]
  dsimp only
  rw [if_pos rfl]
  unfold narrowCast
  by_cases hrange : 0 ≤ requestTime ∧ requestTime < 2 ^ 64
  · rw [if_pos hrange, if_neg (by omega)]
    dsimp only
    by_cases hlate : s.getTimeSyncronizedMS now > requestTime.toNat
    · rw [if_pos hlate, if_neg (by omega), toInt64_shift, Int.toNat_of_nonneg hrange.1]
    · rw [if_neg hlate, if_pos (by omega)]
  · rw [if_neg hrange, if_pos (by omega)]

/-- A round of `receive` that does not throw renews `mLastTimestamp`. -/
theorem receiveDatagram_fault {received : Payload} :
    (s.receiveDatagram now received).fault = (s.dispatch now received).fault := by
  unfold receiveDatagram
  dsimp only
  split
  · rfl
  · rfl

theorem receiveDatagram_session {received : Payload} : (s.receiveDatagram now received).session =
    if (s.dispatch now received).fault = none then
      { (s.dispatch now received).session with
        lastTimestamp := (s.dispatch now received).session.getTimeSyncronizedMS now }
    else (s.dispatch now received).session := by
  unfold receiveDatagram
  dsimp only
  cases hfault : (s.dispatch now received).fault with
  | none => rfl
  | some fault => rfl

/-- `startup` waits, and gets `Start`. -/
def Starts (s : Session) (received : Payload) : Prop := s.awaits = true ∧ received = .json .start

instance (s : Session) (received : Payload) : Decidable (s.Starts received) := instDecidableAnd

theorem startupReceive_starts {received : Payload} (h : s.Starts received) :
    s.startupReceive now received = s.finishStartup now (.json .start) := by
  obtain ⟨hawaits, rfl⟩ := h
  unfold awaits at hawaits
  unfold startupReceive
  cases hphase : s.startupPhase with
  | awaitingResponse time timeout => exact if_neg nofun
  | awaitingStart time timeout => rfl
  | _ =>
    rw [hphase] at hawaits
    cases hawaits

theorem Still.startupReceive {received : Payload} (h : ¬s.Starts received) :
    s.Still (s.startupReceive now received) := by
  have finish (hawaits : s.awaits = true) : s.Still (s.finishStartup now received) := by
    unfold finishStartup
    split
    · exact absurd ⟨hawaits, rfl⟩ h
    · exact ⟨rfl, rfl, rfl, rfl, id, fun _ => List.not_mem_nil⟩
  unfold Session.startupReceive
  split
  · rename_i hphase
    split
    · exact ⟨rfl, rfl, rfl, rfl, id, fun _ => List.not_mem_nil⟩
    · exact finish (by rw [awaits, hphase])
  · rename_i hphase
    exact finish (by rw [awaits, hphase])
  · exact Still.returns_self fun _ => List.not_mem_nil

/-- An answer to the last `ClockSync` makes no callback, and leaves the clocks alone where it fails. -/
theorem dispatch_answers {received : Payload} (h : s.Answers received) :
    (s.dispatch now received).callbacks = [] ∧ ((s.dispatch now received).fault ≠ none →
      (s.dispatch now received).session.timeShift = s.timeShift ∧
        (s.dispatch now received).session.lastTimestamp = s.lastTimestamp ∧
        (s.dispatch now received).session.clockSyncId = s.clockSyncId) := by
  cases received with
  | text raw => cases h
  | json message =>
    cases message with
    | clockSync id requestTime responseTime =>
      have hdispatch : s.dispatch now (.json (.clockSync id requestTime responseTime)) = _ := receiveClockSync_answers h
      rw [hdispatch]
      split
      · exact ⟨rfl, fun _ => ⟨rfl, rfl, rfl⟩⟩
      · split
        · exact ⟨rfl, fun _ => ⟨rfl, rfl, rfl⟩⟩
        · exact ⟨rfl, fun hfault => absurd rfl hfault⟩
    | _ => cases h

/-- A round of `receive` that throws. -/
theorem receiveDatagram_throws {received : Payload} (h : (s.receiveDatagram now received).fault ≠ none) :
    (s.receiveDatagram now received).session.timeShift = s.timeShift ∧
      (s.receiveDatagram now received).session.lastTimestamp = s.lastTimestamp ∧
      (s.receiveDatagram now received).session.clockSyncId = s.clockSyncId := by
  rw [receiveDatagram_fault] at h
  rw [receiveDatagram_session, if_neg h]
  by_cases hanswers : s.Answers received
  · exact (dispatch_answers hanswers).2 h
  · have hstill : s.Still (s.dispatch now received) := Still.dispatch hanswers
    exact ⟨hstill.timeShift, hstill.lastTimestamp, hstill.clockSyncId⟩

/-- `receive` only sends again what is not acknowledged, after its loop. -/
theorem periodic_resends (hstarted : s.started = true) (hin : ¬s.TimedOut now) (hearly : ¬s.SyncDue now) :
    s.periodic now = ({ s with outputQueue := (resend (s.getTimeSyncronizedMS now) s.outputQueue).1 } : Session).returns
      (resend (s.getTimeSyncronizedMS now) s.outputQueue).2 [] := by
  unfold periodic
  rw [if_pos hstarted, if_neg (show ¬s.getTimeSyncronizedMS now > _ from hin)]
  exact if_neg hearly

/-- What `receive` does after its loop: nothing that is of interest to the clocks, or it gives the server up, or it
    asks for the time. -/
theorem periodic_cases (s : Session) (now : Nat) :
    (s.started = true → ¬s.TimedOut now ∧ ¬s.SyncDue now) ∧ s.Still (s.periodic now) ∨
      s.started = true ∧ s.TimedOut now ∧
        s.periodic now = { s with started := false }.returns [] [.onQuit s.playerName true] ∨
      s.started = true ∧ ¬s.TimedOut now ∧ s.SyncDue now ∧ s.periodic now =
        (({ s with outputQueue := (resend (s.getTimeSyncronizedMS now) s.outputQueue).1 } : Session).sendClockSync
          now).1.returns ((resend (s.getTimeSyncronizedMS now) s.outputQueue).2 ++ [(s.sendClockSync now).2]) [] := by
  by_cases hstarted : s.started = true
  · by_cases hout : s.TimedOut now
    · refine Or.inr (Or.inl ⟨hstarted, hout, ?_⟩)
      unfold periodic
      rw [if_pos hstarted]
      exact if_pos hout
    · by_cases hdue : s.SyncDue now
      · refine Or.inr (Or.inr ⟨hstarted, hout, hdue, ?_⟩)
        unfold periodic
        rw [if_pos hstarted, if_neg (show ¬s.getTimeSyncronizedMS now > _ from hout)]
        exact if_pos hdue
      · refine Or.inl ⟨fun _ => ⟨hout, hdue⟩, ?_⟩
        rw [periodic_resends hstarted hout hdue]
        exact ⟨rfl, rfl, rfl, rfl, id, fun _ => List.not_mem_nil⟩
  · refine Or.inl ⟨fun h => absurd h hstarted, ?_⟩
    unfold periodic
    rw [if_neg hstarted]
    exact Still.returns_self fun _ => List.not_mem_nil

/-- A call that is none of `receive`, nor a wait of `startup` that ends with a datagram. -/
def Call.Plain : Call → Prop
  | .startupReceive _ | .datagram _ | .poll => False
  | _ => True

theorem Still.act {a : Call} (h : a.Plain) : s.Still (s.act now a) := by
  cases a with
  | startup timeout => exact ⟨rfl, rfl, rfl, rfl, id, fun _ => List.not_mem_nil⟩
  | startupTimeout => exact Still.startupTimeout
  | quit => exact Still.quit
  | sync syncId delay => exact Still.sync
  | startupReceive received => cases h
  | datagram received => cases h
  | poll => cases h
  | _ => exact Still.sends

/-- The call takes an answer to the last `ClockSync` from the socket. -/
def TakesAnswer (s : Session) (e : Nat × Call) : Prop :=
  match e.2 with
  | .datagram received => s.started = true ∧ s.Answers received
  | _ => False

instance (s : Session) : (e : Nat × Call) → Decidable (s.TakesAnswer e)
  | (_, .datagram received) => inferInstanceAs (Decidable (s.started = true ∧ s.Answers received))
  | (_, .startup _) | (_, .startupTimeout) | (_, .startupReceive _) | (_, .broadcast _ _ _) | (_, .say _)
  | (_, .keepAlive) | (_, .quit) | (_, .syncSimple _ _) | (_, .sync _ _) | (_, .poll) => isFalse id

/-- Only an answer to the last `ClockSync` moves `mTimeShift` and `mLastSyncTime`. -/
theorem clocks_step {e : Nat × Call} (h : ¬s.TakesAnswer e) :
    (s.step e).timeShift = s.timeShift ∧ (s.step e).lastSyncTime = s.lastSyncTime := by
  obtain ⟨now, a⟩ := e
  unfold step
  have still (hstill : s.Still (s.act now a)) : (s.act now a).session.timeShift = s.timeShift ∧
      (s.act now a).session.lastSyncTime = s.lastSyncTime := ⟨hstill.timeShift, hstill.lastSyncTime⟩
  cases a with
  | startupReceive received =>
    by_cases hstarts : s.Starts received
    · simp only [act, startupReceive_starts hstarts]
      exact ⟨rfl, rfl⟩
    · exact still (Still.startupReceive hstarts)
  | datagram received =>
    simp only [act]
    split
    · rename_i hstarted
      have hstill : s.Still (s.dispatch now received) := Still.dispatch fun hanswers => h ⟨hstarted, hanswers⟩
      rw [receiveDatagram_session]
      split
      · exact ⟨hstill.timeShift, hstill.lastSyncTime⟩
      · exact ⟨hstill.timeShift, hstill.lastSyncTime⟩
    · exact ⟨rfl, rfl⟩
  | poll =>
    rcases periodic_cases s now with ⟨-, hstill⟩ | ⟨-, -, heq⟩ | ⟨-, -, -, heq⟩
    · exact still hstill
    · simp only [act, heq]
      exact ⟨rfl, rfl⟩
    · simp only [act, heq]
      exact ⟨rfl, rfl⟩
  | _ => exact still (Still.act trivial)

end Session
end MultiSlider
