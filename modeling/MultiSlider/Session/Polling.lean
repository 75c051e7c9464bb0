import MultiSlider.Session.Calls
import MultiSlider.Session.Clocks

/-! When `receive` asks for the time. It compares the synchronised clock with `mLastSyncTime`, which only an answer
    writes: as long as none has come, every call of `receive` sends a new request under a new number, and the answers to
    the earlier ones are not recognised any more. After an answer the stamp is one of the clock as it was before the
    correction, so a correction forward makes the next request due before its time. -/

namespace MultiSlider

/-- A `ClockSync`. -/
def Payload.isClockSync : Payload → Bool
  | .json (.clockSync _ _ _) => true
  | _ => false

namespace Session

/-- No `ClockSync` waits in the queue of requests. -/
def QueueClean (s : Session) : Prop := ∀ p ∈ s.pending, p.2.data.isClockSync = false

variable {s : Session} {now : Nat}

theorem QueueClean.quiet (h : s.QueueClean) (start : Prop) {t : Turn} (hquiet : s.Quiet start t) :
    t.session.QueueClean := by
  unfold QueueClean
  rw [hquiet.pending]
  exact h

theorem QueueClean.step (h : s.QueueClean) (e : Nat × Call) : (s.step e).QueueClean := by
  obtain ⟨now, a⟩ := e
  unfold Session.step
  cases a with
  | startup timeout => exact h
  | startupTimeout => exact h.quiet False Quiet.startupTimeout
  | startupReceive received => exact h.quiet _ Quiet.startupReceive
  | broadcast data sharedData forced => exact h.quiet False Quiet.broadcast
  | say message => exact h.quiet False Quiet.say
  | keepAlive => exact h.quiet False Quiet.keepAlive
  | quit => exact h.quiet False Quiet.quit
  | syncSimple syncId delay => exact h.quiet False Quiet.syncSimple
  | sync syncId delay =>
    rcases sync_cases s now syncId delay with hquiet | ⟨-, -, -, -, -, sentTime, heq⟩
    · exact h.quiet False hquiet
    · unfold QueueClean
      simp only [act, heq, pending, List.map_append, List.forall_mem_append]
      exact ⟨h, by simp [newEntry, makeEnvelop, Payload.isClockSync]⟩
  | datagram received =>
    simp only [act]
    split
    · rcases receiveDatagram_cases s now received with ⟨-, hquiet⟩ | ⟨ackIdx, -, hacknowledged⟩
      · exact h.quiet False hquiet
      · intro p hp
        rw [pending, hacknowledged.outputQueue] at hp
        exact h p (List.map_subset _ List.eraseP_subset hp)
    · exact h
  | poll => exact h.quiet False Quiet.periodic

/-- `receive` sends a `ClockSync` after its loop. -/
def RequestsTime (s : Session) (now : Nat) : Prop := ∃ e ∈ (s.periodic now).sent, e.data.isClockSync = true

instance (s : Session) (now : Nat) : Decidable (s.RequestsTime now) :=
  inferInstanceAs (Decidable (∃ e ∈ (s.periodic now).sent, e.data.isClockSync = true))

/-- `receive` comes to the part after its loop where it looks at its requests. -/
def Attends (s : Session) (now : Nat) : Prop := s.started = true ∧ ¬s.TimedOut now

instance (s : Session) (now : Nat) : Decidable (s.Attends now) := instDecidableAnd

theorem requestsTime_iff (h : s.QueueClean) : s.RequestsTime now ↔ s.Attends now ∧ s.SyncDue now := by
  have hresent (currentTime : Nat) : ∀ e ∈ (resend currentTime s.outputQueue).2, e.data.isClockSync ≠ true := by
    intro e he
    obtain ⟨seqIdx, hpending⟩ := mem_pending_of_resend he
    rw [h (seqIdx, e) hpending]
    exact Bool.false_ne_true
  unfold RequestsTime
  rcases s.periodic_cases now with ⟨hnot, -⟩ | ⟨-, hout, heq⟩ | ⟨hstarted, hout, hdue, heq⟩
  · refine iff_of_false ?_ fun h => (hnot h.1.1).2 h.2
    rintro ⟨e, he, hclock⟩
    by_cases hstarted : s.started = true
    · obtain ⟨hin, hearly⟩ := hnot hstarted
      rw [periodic_resends hstarted hin hearly] at he
      exact hresent _ e he hclock
    · unfold periodic at he
      rw [if_neg hstarted] at he
      cases he
  · rw [heq]
    exact iff_of_false (by simp [returns]) fun h => h.1.2 hout
  · rw [heq]
    refine iff_of_true ⟨(s.sendClockSync now).2, ?_, rfl⟩ ⟨⟨hstarted, hout⟩, hdue⟩
    exact List.mem_append_right _ (List.mem_singleton_self _)

end Session

/-- A session at a time, the time of the last `ClockSync` that `receive` sent, and that of the answer to it. -/
structure Polling where
  session : Session
  time : Nat
  requested : Option Nat
  answered : Option Nat

namespace Polling

/-- Time passes, or a method is called. -/
inductive Event where
  | elapse (ms : Nat)
  | call (call : Session.Call)
deriving DecidableEq, Repr

/-- A new session at a time; nothing has been requested. -/
def start (playerName : String) (sessionId time : Nat) : Polling := ⟨.create playerName sessionId, time, none, none⟩

/-- `getTimeLocalMS()` now. -/
def now (σ : Polling) : Nat := getTimeLocalMS σ.time

/-- The call is a `receive` that sends a `ClockSync` after its loop. -/
def Requests (σ : Polling) (call : Session.Call) : Prop := call = .poll ∧ σ.session.RequestsTime σ.now

instance (σ : Polling) (call : Session.Call) : Decidable (σ.Requests call) := instDecidableAnd

/-- An event, with the times of the last request and of its answer. -/
def step (σ : Polling) : Event → Polling
  | .elapse ms => { σ with time := σ.time + ms }
  | .call call =>
    { σ with
      session := σ.session.step (σ.now, call)
      requested := if σ.Requests call then some σ.time else σ.requested
      answered := if σ.Requests call then none
        else if σ.session.TakesAnswer (σ.now, call) then some σ.time else σ.answered }

/-- A `ClockSync` of `receive` comes `CLOCK_SYNC_TIMEOUT_MS` after the answer to the one before it, or that long after
    that one. -/
def Spaced (σ : Polling) : Event → Prop
  | .elapse _ => True
  | .call call => σ.Requests call → ∀ requested, σ.requested = some requested →
    (∃ answered, σ.answered = some answered ∧ answered + clockSyncTimeoutMs ≤ σ.time) ∨
      requested + clockSyncTimeoutMs ≤ σ.time

/-- The local clock has been set back, at midnight, since it read `time`. -/
def SetBack (σ : Polling) (time : Nat) : Prop :=
  σ.session.getTimeSyncronizedMS σ.now < σ.session.getTimeSyncronizedMS (getTimeLocalMS time)

/-- `receive` comes to look at the clock within `CLOCK_SYNC_TIMEOUT_MS` of its last `ClockSync` only when that one has
    been answered, or the clock has been set back, and then the clock, corrected, is not that much later than
    `mLastSyncTime`. The first part says what the second one takes: a request without an answer is due again at each
    call (`Timed.unanswered`). -/
def Patient (σ : Polling) : Event → Prop
  | .elapse _ => True
  | .call call => call = .poll → σ.session.Attends σ.now → ∀ requested, σ.requested = some requested →
    σ.time < requested + clockSyncTimeoutMs →
      (σ.answered.isSome = true ∨ σ.SetBack requested) ∧ ¬σ.session.SyncDue σ.now

/-- What the times say about the session: a request that has not been answered was due when it was made, and would
    be so again. -/
structure Timed (σ : Polling) : Prop where
  clean : σ.session.QueueClean
  order : ∀ requested answered, σ.requested = some requested → σ.answered = some answered → requested ≤ answered
  past : ∀ requested, σ.requested = some requested → requested ≤ σ.time
  due : ∀ requested, σ.requested = some requested → σ.answered = none →
    σ.session.SyncDue (getTimeLocalMS requested)

variable {σ : Polling}

theorem Timed.start (playerName : String) (sessionId time : Nat) : (start playerName sessionId time).Timed where
  clean := List.forall_mem_nil _
  order _ _ h := by cases h
  past _ h := by cases h
  due _ h := by cases h

theorem syncDue_congr {s s' : Session} (hshift : s'.timeShift = s.timeShift)
    (hlast : s'.lastSyncTime = s.lastSyncTime) (now : Nat) : s'.SyncDue now ↔ s.SyncDue now := by
  unfold Session.SyncDue Session.getTimeSyncronizedMS
  rw [hshift, hlast]

theorem Timed.step (h : σ.Timed) (e : Event) : (σ.step e).Timed := by
  cases e with
  | elapse ms =>
    exact ⟨h.clean, h.order, fun requested hrequested => Nat.le_add_right_of_le (h.past requested hrequested), h.due⟩
  | call call =>
    have hclean := h.clean.step (σ.now, call)
    by_cases hrequests : σ.Requests call
    · have hnot : ¬σ.session.TakesAnswer (σ.now, call) := by
        rw [hrequests.1]
        exact id
      obtain ⟨hshift, hlast⟩ := Session.clocks_step hnot
      have hrequested : (σ.step (.call call)).requested = some σ.time := if_pos hrequests
      have hanswered : (σ.step (.call call)).answered = none := if_pos hrequests
      refine ⟨hclean, fun requested answered _ ha => ?_, fun requested hr => ?_, fun requested hr _ => ?_⟩
      · cases hanswered.symm.trans ha
      · cases hrequested.symm.trans hr
        exact le_rfl
      · cases hrequested.symm.trans hr
        exact (syncDue_congr hshift hlast _).mpr ((Session.requestsTime_iff h.clean).mp hrequests.2).2
    · have hrequested : (σ.step (.call call)).requested = σ.requested := if_neg hrequests
      by_cases htakes : σ.session.TakesAnswer (σ.now, call)
      · have hanswered : (σ.step (.call call)).answered = some σ.time := (if_neg hrequests).trans (if_pos htakes)
        refine ⟨hclean, fun requested answered hr ha => ?_, fun requested hr => ?_, fun requested _ ha => ?_⟩
        · cases hanswered.symm.trans ha
          exact h.past requested (hrequested.symm.trans hr)
        · exact h.past requested (hrequested.symm.trans hr)
        · cases hanswered.symm.trans ha
      · have hanswered : (σ.step (.call call)).answered = σ.answered := (if_neg hrequests).trans (if_neg htakes)
        obtain ⟨hshift, hlast⟩ := Session.clocks_step htakes
        refine ⟨hclean, fun requested answered hr ha => ?_, fun requested hr => ?_, fun requested hr ha => ?_⟩
        · exact h.order requested answered (hrequested.symm.trans hr) (hanswered.symm.trans ha)
        · exact h.past requested (hrequested.symm.trans hr)
        · exact (syncDue_congr hshift hlast _).mpr
            (h.due requested (hrequested.symm.trans hr) (hanswered.symm.trans ha))

/-- As long as a request is not answered and the clock not set back, each `receive` makes another one. -/
theorem Timed.unanswered (h : σ.Timed) {requested : Nat} (hrequested : σ.requested = some requested)
    (hanswered : σ.answered = none) (hback : ¬σ.SetBack requested) : σ.session.SyncDue σ.now :=
  lt_of_lt_of_le (h.due requested hrequested hanswered) (not_lt.mp hback)

theorem Timed.spaced_iff (h : σ.Timed) (e : Event) : σ.Spaced e ↔ σ.Patient e := by
  cases e with
  | elapse ms => exact Iff.rfl
  | call call =>
    constructor
    · intro hspaced hpoll hattends requested hrequested hearly
      have hnot : ¬σ.session.SyncDue σ.now := by
        intro hdue
        rcases hspaced ⟨hpoll, (Session.requestsTime_iff h.clean).mpr ⟨hattends, hdue⟩⟩ requested hrequested with
          ⟨answered, hanswered, hlate⟩ | hlate
        · have := h.order requested answered hrequested hanswered
          omega
        · omega
      refine ⟨?_, hnot⟩
      by_contra hneither
      obtain ⟨hunanswered, hback⟩ := not_or.mp hneither
      rw [Option.not_isSome_iff_eq_none] at hunanswered
      exact hnot (h.unanswered hrequested hunanswered hback)
    · rintro hpatient ⟨hpoll, hrequests⟩ requested hrequested
      obtain ⟨hattends, hdue⟩ := (Session.requestsTime_iff h.clean).mp hrequests
      by_contra hneither
      have hearly := not_le.mp (not_or.mp hneither).2
      exact (hpatient hpoll hattends requested hrequested hearly).2 hdue

/-- In every life of a session the requests of `receive` are spaced if and only if `receive` is called patiently. -/
theorem requests_spaced_iff (playerName : String) (sessionId time : Nat) (es : List Event) :
    Machine.Along step Spaced (start playerName sessionId time) es ↔
      Machine.Along step Patient (start playerName sessionId time) es :=
  Machine.along_congr (I := Timed) (fun _ e h => h.step e) (fun _ e h => h.spaced_iff e)
    (Timed.start playerName sessionId time)

/-- A session starts at ten o'clock, and `receive` is called twice within a second, before any answer could come. -/
theorem request_superseded :
    ¬∀ (playerName : String) (sessionId time : Nat) (es : List Event),
      Machine.Along step Spaced (start playerName sessionId time) es := by
  intro h
  have hspaced := h "p" 0 36000000
    [.call (.startup 10000), .call (.startupReceive (.json .start)), .elapse 1000, .call .poll, .elapse 500,
      .call .poll]
  obtain ⟨-, -, -, -, -, hlast, -⟩ := hspaced
  have hlate := hlast (by decide +kernel) 36001000 (by decide +kernel)
  rcases hlate with ⟨answered, hanswered, -⟩ | hlate
  · cases hanswered
  · exact absurd hlate (by decide +kernel)

end Polling
end MultiSlider
