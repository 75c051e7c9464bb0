import MultiSlider.Session.Calls

/-! When `receive` gives the server up. It measures the silence on the synchronised clock, which jumps when an answer to
    `ClockSync` corrects it; but the round that takes the answer stamps its end with the corrected clock, so the time of
    the last sign moves with the clock, and what is left is a difference of two readings of the local clock. -/

namespace MultiSlider
namespace Session

/-- A call that records a sign of the server: `startup` gets `Start`, or a round of `receive` ends without an
    exception. -/
def IsSign (s : Session) (e : Nat × Session.Call) : Prop :=
  match e.2 with
  | .startupReceive received => s.Starts received
  | .datagram received => s.started = true ∧ (s.receiveDatagram e.1 received).fault = none
  | _ => False

instance (s : Session) : (e : Nat × Session.Call) → Decidable (s.IsSign e)
  | (_, .startupReceive received) => inferInstanceAs (Decidable (s.Starts received))
  | (now, .datagram received) =>
    inferInstanceAs (Decidable (s.started = true ∧ (s.receiveDatagram now received).fault = none))
  | (_, .startup _) | (_, .startupTimeout) | (_, .broadcast _ _ _) | (_, .say _) | (_, .keepAlive) | (_, .quit)
  | (_, .syncSimple _ _) | (_, .sync _ _) | (_, .poll) => isFalse id

/-- The synchronised time lies in the range of the signed numbers. -/
def InRange (s : Session) (now : Nat) : Prop := 0 ≤ now + s.timeShift ∧ now + s.timeShift < 2 ^ 63

instance (s : Session) (now : Nat) : Decidable (s.InRange now) := instDecidableAnd

theorem InRange.getTimeSyncronizedMS {s : Session} {now : Nat} (h : s.InRange now) :
    (s.getTimeSyncronizedMS now : Int) = now + s.timeShift :=
  getTimeSyncronizedMS_eq h.1 (lt_trans h.2 (by decide))

end Session

/-- A session, and what the local clock read at the last sign of the server. -/
structure Watch where
  session : Session
  lastSign : Option Nat

namespace Watch

/-- A call, whose time is kept where it is a sign of the server. -/
def step (w : Watch) (e : Nat × Session.Call) : Watch :=
  ⟨w.session.step e, if w.session.IsSign e then some e.1 else w.lastSign⟩

/-- The synchronised time is in range when a call is made and when it returns. -/
def ClockInRange (w : Watch) (e : Nat × Session.Call) : Prop :=
  w.session.InRange e.1 ∧ (w.session.step e).InRange e.1

instance (w : Watch) (e : Nat × Session.Call) : Decidable (w.ClockInRange e) := instDecidableAnd

/-- If the call reports a timeout, the last sign is more than `KEEP_ALIVE_LIMIT` ago. -/
def TimeoutOverdue (w : Watch) (e : Nat × Session.Call) : Prop :=
  (∃ name, .onQuit name true ∈ w.session.callbacksOf e) →
    ∃ last, w.lastSign = some last ∧ last + clientKeepAliveLimit < e.1

/-- `mLastTimestamp` is what the clock, as it is corrected now, read at the last sign. -/
def Signed (w : Watch) : Prop := w.session.started = true → ∃ last, w.lastSign = some last ∧ w.session.InRange last ∧
  (w.session.lastTimestamp : Int) = last + w.session.timeShift

variable {w : Watch} {now : Nat}

/-- A call that is no sign keeps the time of the last one where it leaves the clocks alone. -/
theorem Signed.keep (h : w.Signed) {e : Nat × Session.Call} (hsign : ¬w.session.IsSign e)
    (hshift : (w.session.step e).timeShift = w.session.timeShift)
    (hlast : (w.session.step e).lastTimestamp = w.session.lastTimestamp)
    (hstarted : (w.session.step e).started = true → w.session.started = true) : (w.step e).Signed := by
  intro hstep
  obtain ⟨last, hsigned, hrange, hstamp⟩ := h (hstarted hstep)
  refine ⟨last, (if_neg hsign).trans hsigned, ?_, ?_⟩
  · unfold Session.InRange
    rw [show (w.step e).session.timeShift = w.session.timeShift from hshift]
    exact hrange
  · rw [show (w.step e).session.timeShift = w.session.timeShift from hshift,
      show (w.step e).session.lastTimestamp = w.session.lastTimestamp from hlast]
    exact hstamp

theorem Signed.still (h : w.Signed) {e : Nat × Session.Call} (hsign : ¬w.session.IsSign e)
    (hstill : w.session.Still (w.session.act e.1 e.2)) : (w.step e).Signed :=
  h.keep hsign hstill.timeShift hstill.lastTimestamp hstill.started

/-- A call that is a sign stamps its end. -/
theorem Signed.sign {e : Nat × Session.Call} (hsign : w.session.IsSign e) (hrange : (w.session.step e).InRange e.1)
    (hlast : (w.session.step e).lastTimestamp = (w.session.step e).getTimeSyncronizedMS e.1) : (w.step e).Signed := by
  refine fun _ => ⟨e.1, if_pos hsign, hrange, ?_⟩
  show ((w.session.step e).lastTimestamp : Int) = e.1 + (w.session.step e).timeShift
  rw [hlast, hrange.getTimeSyncronizedMS]

theorem Signed.step (h : w.Signed) {e : Nat × Session.Call} (hrange : w.ClockInRange e) : (w.step e).Signed := by
  obtain ⟨now, a⟩ := e
  cases a with
  | startupReceive received =>
    by_cases hstarts : w.session.Starts received
    · refine Signed.sign hstarts hrange.2 ?_
      simp only [Session.step, Session.act, Session.startupReceive_starts hstarts]
      rfl
    · exact h.still hstarts (Session.Still.startupReceive hstarts)
  | datagram received =>
    by_cases hstarted : w.session.started = true
    · have hact : w.session.step (now, .datagram received) = (w.session.receiveDatagram now received).session :=
        congrArg Turn.session (if_pos hstarted)
      -- A round that throws comes to no stamp.
      by_cases hfault : (w.session.receiveDatagram now received).fault = none
      · refine Signed.sign ⟨hstarted, hfault⟩ hrange.2 ?_
        rw [hact, Session.receiveDatagram_session, if_pos (Session.receiveDatagram_fault ▸ hfault)]
        rfl
      · obtain ⟨hshift, hlast, -⟩ := Session.receiveDatagram_throws hfault
        exact h.keep (fun hsign => hfault hsign.2) (hact ▸ hshift) (hact ▸ hlast) fun _ => hstarted
    · refine h.still (fun hsign => hstarted hsign.1) ?_
      simp only [Session.act, if_neg hstarted]
      exact Session.Still.returns_self fun _ => List.not_mem_nil
  | poll =>
    rcases w.session.periodic_cases now with ⟨-, hstill⟩ | ⟨hstarted, -, heq⟩ | ⟨hstarted, -, -, heq⟩
    · exact h.still id hstill
    · refine h.keep id ?_ ?_ fun _ => hstarted
      · simp only [Session.step, Session.act, heq]
        rfl
      · simp only [Session.step, Session.act, heq]
        rfl
    · refine h.keep id ?_ ?_ fun _ => hstarted
      · simp only [Session.step, Session.act, heq]
        rfl
      · simp only [Session.step, Session.act, heq]
        rfl
  | _ => exact h.still id (Session.Still.act trivial)

end Watch

namespace Session

/-- Only the check after the loop of `receive` reports a timeout. -/
theorem timedOut_of_report {s : Session} {e : Nat × Session.Call} {name : String}
    (h : .onQuit name true ∈ s.callbacksOf e) : e.2 = .poll ∧ s.started = true ∧ s.TimedOut e.1 := by
  obtain ⟨now, a⟩ := e
  unfold callbacksOf at h
  cases a with
  | startupReceive received =>
    by_cases hstarts : s.Starts received
    · simp only [act, startupReceive_starts hstarts] at h
      exact absurd h (by simp [finishStartup, returns])
    · exact absurd h ((Still.startupReceive hstarts).noTimeout name)
  | datagram received =>
    simp only [act] at h
    split at h
    · rw [receiveDatagram_callbacks] at h
      by_cases hanswers : s.Answers received
      · rw [(dispatch_answers hanswers).1] at h
        cases h
      · exact absurd h ((Still.dispatch hanswers).noTimeout name)
    · cases h
  | poll =>
    rcases s.periodic_cases now with ⟨-, hstill⟩ | ⟨hstarted, hout, -⟩ | ⟨-, -, -, heq⟩
    · exact absurd h (hstill.noTimeout name)
    · exact ⟨rfl, hstarted, hout⟩
    · simp only [act, heq] at h
      cases h
  | _ => exact absurd h (Still.noTimeout (Still.act (by trivial)) name)

end Session

namespace Watch

theorem Signed.overdue {w : Watch} (h : w.Signed) {e : Nat × Session.Call} (hrange : w.ClockInRange e) :
    w.TimeoutOverdue e := by
  rintro ⟨name, hreport⟩
  obtain ⟨-, hstarted, hout⟩ := Session.timedOut_of_report hreport
  obtain ⟨last, hlast, hsigned, hstamp⟩ := h hstarted
  refine ⟨last, hlast, ?_⟩
  have hnow := hrange.1.getTimeSyncronizedMS
  have hlimit : clientKeepAliveLimit = 10000 := rfl
  obtain ⟨-, hhigh⟩ := hsigned
  unfold Session.TimedOut at hout
  omega

/-- In every life of a session whose synchronised time stays in range, a timeout is reported only when the local clock
    reads more than `KEEP_ALIVE_LIMIT` later than at the last sign of the server. -/
theorem timeouts_overdue (playerName : String) (sessionId : Nat) {es : List (Nat × Session.Call)}
    (h : Machine.Along step ClockInRange ⟨.create playerName sessionId, none⟩ es) :
    Machine.Along step TimeoutOverdue ⟨.create playerName sessionId, none⟩ es :=
  Machine.Along.of_invariant (I := Signed) (fun _ _ h hrange => h.step hrange) (fun _ _ h hrange => h.overdue hrange)
    (fun hstarted => absurd hstarted Bool.false_ne_true) h

/-- A session starts, its clock is put back by five seconds, and nothing comes any more. -/
def silent : List (Nat × Session.Call) :=
  [(8000, .startup 10000), (9000, .startupReceive (.json .start)), (9100, .datagram (.json (.clockSync 1 9000 4050))),
    (19100, .poll), (19101, .poll)]

theorem timeouts_overdue_silent : Machine.Along step TimeoutOverdue ⟨.create "p" 0, none⟩ silent :=
  timeouts_overdue "p" 0 (by decide)

end Watch
end MultiSlider
