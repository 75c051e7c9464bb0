import Mathlib.Algebra.Order.Group.Abs
import MultiSlider.Session.Calls
import MultiSlider.Session.Handlers

/-! What a client makes of the server's time. The first answer to a `ClockSync` finds the server's clock out to half the
    time it took, whatever the correction was before. The same answer again is taken for one that took as long as the
    first correction was large: nothing marks the request as answered. And a `KeepAlive` moves the ping only where its
    timestamp lies ahead of the client's clock, which is never the case once the clocks agree. -/

namespace MultiSlider
namespace Session

variable {s : Session} {now : Nat}

theorem getTimeSyncronizedMS_lt (s : Session) (now : Nat) : s.getTimeSyncronizedMS now < 2 ^ 64 := by
  unfold getTimeSyncronizedMS
  omega

/-! ### The correction -/

/-- The call sends no `ClockSync` and takes no answer to the last one. -/
def Undisturbed (s : Session) (e : Nat × Call) : Prop := (s.step e).clockSyncId = s.clockSyncId ∧ ¬s.TakesAnswer e

theorem undisturbed_run {es : List (Nat × Call)} (h : Machine.Along step Undisturbed s es) :
    (Machine.run step s es).clockSyncId = s.clockSyncId ∧ (Machine.run step s es).timeShift = s.timeShift := by
  refine Machine.run_invariant (P := fun s' : Session => s'.clockSyncId = s.clockSyncId ∧ s'.timeShift = s.timeShift)
    (fun s' e hs' he => ?_) ⟨rfl, rfl⟩ h
  exact ⟨he.1.trans hs'.1, (clocks_step he.2).1.trans hs'.2⟩

/-- What a running server answers to a `ClockSync`. -/
theorem answer_clockSync {a : SessionActor} {accepts : Int → Bool} {serverTime : Int} {c address : Address}
    {answer : Payload} (hlow : 0 ≤ now + s.timeShift) (hhigh : now + s.timeShift < 2 ^ 63)
    (hrunning : a.state = .running)
    (h : .send answer address ∈ (a.receive accepts serverTime c (s.sendClockSync now).2.data).2) :
    answer = .json (.clockSync ((s.sendClockSync now).1.clockSyncId : Int) (now + s.timeShift) serverTime) := by
  have hshift : (s.sendClockSync now).1.timeShift = s.timeShift := rfl
  have hsent : ((s.sendClockSync now).1.getTimeSyncronizedMS now : Int) = now + s.timeShift :=
    getTimeSyncronizedMS_eq hlow (by omega)
  have hid : toInt ((s.sendClockSync now).1.clockSyncId : Int) = (s.sendClockSync now).1.clockSyncId := by
    refine toInt_of_range (by omega) ?_
    have : (s.sendClockSync now).1.clockSyncId < 2 ^ 8 := by
      unfold sendClockSync
      dsimp only
      split <;> omega
    omega
  have htime : toLong (now + s.timeShift) = now + s.timeShift := by
    unfold toLong
    rw [Int.bmod_def]
    omega
  have hdata : (s.sendClockSync now).2.data = .json (.clockSync (s.sendClockSync now).1.clockSyncId
      ((s.sendClockSync now).1.getTimeSyncronizedMS now) 0) := rfl
  rw [hdata, hsent] at h
  unfold SessionActor.receive at h
  split at h
  · cases h
  · simp only [SessionActor.handle, hrunning, BackendMessage.extract, SessionActor.handleRunning, hid, htime] at h
    obtain ⟨heq, -⟩ := Effect.send.inj (List.mem_singleton.mp h)
    exact heq

/-- An answer to the last `ClockSync` is processed if it comes after the request, on the client's clock. -/
theorem receiveDatagram_answers (s : Session) (now : Nat) {id : Int} (requestTime responseTime : Int)
    (hid : narrowCast 8 id = some s.clockSyncId) :
    ((s.receiveDatagram now (.json (.clockSync id requestTime responseTime))).fault = none ↔
        0 ≤ requestTime ∧ requestTime < s.getTimeSyncronizedMS now) ∧
      (s.receiveDatagram now (.json (.clockSync id requestTime responseTime))).session.clockSyncId = s.clockSyncId ∧
      (0 ≤ requestTime → requestTime < s.getTimeSyncronizedMS now →
        (s.receiveDatagram now (.json (.clockSync id requestTime responseTime))).session.timeShift =
            toInt64 (s.timeShift +
              (responseTime - requestTime - ((s.getTimeSyncronizedMS now - requestTime.toNat) / 2 : Nat))) ∧
          (s.receiveDatagram now (.json (.clockSync id requestTime responseTime))).session.lastPing =
            (s.getTimeSyncronizedMS now - requestTime.toNat) / 2) := by
  have hrange := s.getTimeSyncronizedMS_lt now
  have hdispatch : s.dispatch now (.json (.clockSync id requestTime responseTime)) = _ :=
    receiveClockSync_answers hid
  rw [receiveDatagram_fault, receiveDatagram_session, hdispatch]
  split
  · exact ⟨iff_of_false (by simp [throws]) (by omega), rfl, by omega⟩
  · split
    · exact ⟨iff_of_false (by simp [throws]) (by omega), rfl, by omega⟩
    · exact ⟨iff_of_true rfl (by omega), rfl, fun _ _ => ⟨rfl, rfl⟩⟩

/-- Request and answer take `d₁` and `d₂`, and the server's clock is `offset` ahead of the local one: the first answer
    to the last `ClockSync` leaves a correction that is wrong by half of the time it took at most, whatever it was
    before. Every clock reads a time in `[0, 2^63)`. -/
theorem clockSync_accurate {a : SessionActor} {accepts : Int → Bool} {c address : Address} {answer : Payload}
    {d₁ d₂ : Nat} {offset : Int} {es : List (Nat × Call)} (hdelay : 1 ≤ d₁ + d₂) (hlocal : now + d₁ + d₂ < 2 ^ 63)
    (hlow : 0 ≤ now + s.timeShift) (hhigh : (now + d₁ + d₂ : Nat) + s.timeShift < 2 ^ 63)
    (hserver : 0 ≤ (now + d₁ : Nat) + offset ∧ (now + d₁ : Nat) + offset < 2 ^ 63) (hrunning : a.state = .running)
    (hanswer : .send answer address ∈ (a.receive accepts ((now + d₁ : Nat) + offset) c (s.sendClockSync now).2.data).2)
    (hfirst : Machine.Along step Undisturbed (s.sendClockSync now).1 es) :
    ((Machine.run step (s.sendClockSync now).1 es).receiveDatagram (now + d₁ + d₂) answer).fault = none ∧
      |((Machine.run step (s.sendClockSync now).1 es).receiveDatagram (now + d₁ + d₂) answer).session.timeShift -
        offset| ≤ (d₁ + d₂ + 1) / 2 ∧
      ((Machine.run step (s.sendClockSync now).1 es).receiveDatagram (now + d₁ + d₂) answer).session.lastPing =
        (d₁ + d₂) / 2 := by
  rw [answer_clockSync hlow (by omega) hrunning hanswer]
  obtain ⟨hid, hshift⟩ := undisturbed_run hfirst
  replace hshift : (Machine.run step (s.sendClockSync now).1 es).timeShift = s.timeShift := hshift
  have hmatch : narrowCast 8 ((s.sendClockSync now).1.clockSyncId : Int) = some (s.sendClockSync now).1.clockSyncId :=
    narrowCast_clockSyncId
  rw [← hid] at hmatch ⊢
  generalize Machine.run step (s.sendClockSync now).1 es = s' at hmatch hshift
  have hcurr : (s'.getTimeSyncronizedMS (now + d₁ + d₂) : Int) = (now + d₁ + d₂ : Nat) + s.timeShift := by
    rw [← hshift] at hlow hhigh ⊢
    exact getTimeSyncronizedMS_eq (by omega) (by omega)
  have hping : (s'.getTimeSyncronizedMS (now + d₁ + d₂) - ((now : Int) + s.timeShift).toNat) / 2 = (d₁ + d₂) / 2 := by
    omega
  obtain ⟨hfault, -, hprocessed⟩ := s'.receiveDatagram_answers (now + d₁ + d₂) (now + s.timeShift)
    ((now + d₁ : Nat) + offset) hmatch
  obtain ⟨hnew, hlast⟩ := hprocessed hlow (by omega)
  rw [hping] at hnew hlast
  refine ⟨hfault.mpr (by omega), ?_, hlast⟩
  rw [hnew, hshift, toInt64_eq (by omega) (by omega), abs_le]
  omega

/-- A session that has started; its clock has not been corrected. -/
def begun : Session := { create "p" 0 with started := true }

/-- A request at 1000, to a server whose clock is five seconds ahead. Its answer takes three milliseconds, all of them
    on the way there. -/
def exchange : Turn :=
  (Machine.run step (begun.sendClockSync 1000).1 [(1002, .say "x")]).receiveDatagram (1000 + 3 + 0)
    (.json (.clockSync 1 1000 6003))

theorem clockSync_accurate_slow : exchange.fault = none ∧
    |exchange.session.timeShift - 5000| ≤ ((3 : Nat) + (0 : Nat) + 1) / 2 ∧
      exchange.session.lastPing = (3 + 0) / 2 :=
  clockSync_accurate (a := ((SessionActor.create 0 ["p"]).receive (fun _ => true) 0 0 (.json (.ready "p"))).1)
    (by decide) (by decide) (by decide) (by decide) (by decide) rfl
    (show .send (.json (.clockSync 1 1000 6003)) 0 ∈ (SessionActor.receive _ (fun _ => true) ((1000 + 3 : Nat) + 5000) 0
      (begun.sendClockSync 1000).2.data).2 by decide +kernel)
    ⟨⟨rfl, id⟩, trivial⟩

/-! ### The same answer twice -/

/-- What the synchronised clock reads at `later`, after an answer that came at `now` has corrected it. -/
def corrected (s : Session) (now later : Nat) (requestTime responseTime : Int) : Int :=
  (later + (s.timeShift +
    (responseTime - requestTime - ((s.getTimeSyncronizedMS now - requestTime.toNat) / 2 : Nat)))) % 2 ^ 64

/-- Once the answer has been processed, processing it again does not fail and leaves the correction as it is. -/
def DuplicateHarmless (s : Session) (now later : Nat) (answer : Payload) : Prop :=
  (s.receiveDatagram now answer).fault = none →
    ((s.receiveDatagram now answer).session.receiveDatagram later answer).fault = none ∧
    ((s.receiveDatagram now answer).session.receiveDatagram later answer).session.timeShift =
      (s.receiveDatagram now answer).session.timeShift

/-- The same answer again is harmless if and only if the request was made, on the clock that the answer has corrected,
    twice as long ago as the answer says, modulo 2^64. -/
theorem duplicate_harmless_iff (s : Session) (now later : Nat) {id requestTime responseTime : Int}
    (hid : narrowCast 8 id = some s.clockSyncId) :
    s.DuplicateHarmless now later (.json (.clockSync id requestTime responseTime)) ↔
      (0 ≤ requestTime ∧ requestTime < s.getTimeSyncronizedMS now →
        requestTime < s.corrected now later requestTime responseTime ∧
          (responseTime - requestTime - (s.corrected now later requestTime responseTime - requestTime) / 2) % 2 ^ 64 =
            0) := by
  obtain ⟨hfault, hsame, hprocessed⟩ := s.receiveDatagram_answers now requestTime responseTime hid
  unfold DuplicateHarmless
  rw [hfault]
  refine forall_congr' fun hfirst => ?_
  obtain ⟨hshift, -⟩ := hprocessed hfirst.1 hfirst.2
  rw [← hsame] at hid
  generalize (s.receiveDatagram now (.json (.clockSync id requestTime responseTime))).session = s' at hid hshift
  have hcorrected : (s'.getTimeSyncronizedMS later : Int) = s.corrected now later requestTime responseTime := by
    unfold corrected getTimeSyncronizedMS
    rw [hshift, add_toInt64_emod, Int.toNat_of_nonneg (Int.emod_nonneg _ (by decide))]
    rfl
  obtain ⟨hfault', -, hprocessed'⟩ := s'.receiveDatagram_answers later requestTime responseTime hid
  rw [hfault', ← hcorrected, and_iff_right hfirst.1]
  refine and_congr_right fun hlate => ?_
  rw [(hprocessed' hfirst.1 hlate).1]
  -- The shift is a cast already, so the second correction keeps it if and only if what it adds vanishes modulo 2^64.
  rw [hshift, toInt64_eq_toInt64_iff, add_comm, add_toInt64_emod]
  omega

theorem duplicate_harmless_level :
    { begun with clockSyncId := 1 }.DuplicateHarmless 1000 1001 (.json (.clockSync 1 900 950)) :=
  (duplicate_harmless_iff { begun with clockSyncId := 1 } 1000 1001 rfl).mpr (by decide)

/-- A server whose clock is four seconds ahead: its answer comes twice, and the second one takes half of the correction
    back. -/
theorem duplicate_moves_clock :
    ¬∀ (s : Session) (now later : Nat) (id requestTime responseTime : Int), s.started = true → now ≤ later →
      s.Answers (.json (.clockSync id requestTime responseTime)) →
      ((s.receiveDatagram now (.json (.clockSync id requestTime responseTime))).session.receiveDatagram later
        (.json (.clockSync id requestTime responseTime))).session.timeShift =
      (s.receiveDatagram now (.json (.clockSync id requestTime responseTime))).session.timeShift := by
  intro h
  have hsame := h { begun with clockSyncId := 1 } 1000 1001 1 900 5000 rfl (by decide) rfl
  exact absurd hsame (by decide)

/-! ### The ping -/

/-- A `KeepAlive` of the server: the server's time when it was sent, how long it was on its way, and what the client's
    local clock reads when it is processed. -/
structure Beat where
  sent : Nat
  delay : Nat
  now : Nat
deriving DecidableEq, Repr

/-- The object after a round of `receive` with a `KeepAlive`. -/
def hear (s : Session) (b : Beat) : Session := (s.receiveDatagram b.now (.json (.keepAlive none b.sent))).session

/-- The synchronised clock reads the server's time. -/
def InStep (s : Session) (b : Beat) : Prop := 1 ≤ b.delay ∧ s.getTimeSyncronizedMS b.now = b.sent + b.delay

instance (s : Session) (b : Beat) : Decidable (s.InStep b) := instDecidableAnd

/-- The estimate is half as far away from the delay as it was, up to one millisecond. -/
def PingFollows (s : Session) (b : Beat) : Prop :=
  2 * |((s.hear b).lastPing : Int) - b.delay| ≤ |(s.lastPing : Int) - b.delay| + 2

instance (s : Session) (b : Beat) : Decidable (s.PingFollows b) := Int.decLe _ _

/-- The average halves the distance, where the guard lets a timestamp through: one that lies ahead. -/
theorem updatePing_ahead {timestamp delay : Nat} (hsync : 0 < s.lastSyncTime) (hdelay : 1 ≤ delay)
    (hfits : s.lastPing + delay < 2 ^ 64) (hahead : timestamp = s.getTimeSyncronizedMS now + delay) :
    2 * |((s.updatePing now timestamp).lastPing : Int) - delay| ≤ |(s.lastPing : Int) - delay| + 2 := by
  have hping : (s.updatePing now timestamp).lastPing = (s.lastPing + delay) / 2 := by
    unfold updatePing
    rw [if_pos hsync, hahead]
    dsimp only
    rw [if_pos (by omega), Nat.add_sub_cancel_left, Nat.mod_eq_of_lt hfits]
  rw [hping]
  have hbefore := abs_cases ((s.lastPing : Int) - delay)
  have hafter := abs_cases (((s.lastPing + delay) / 2 : Nat) - (delay : Int))
  omega

/-- A timestamp of the past is never taken into account. -/
theorem hear_eq {b : Beat} (h : s.InStep b) :
    s.hear b = { s with lastTimestamp := s.getTimeSyncronizedMS b.now } := by
  obtain ⟨hdelay, hnow⟩ := h
  have hrange := s.getTimeSyncronizedMS_lt b.now
  have hping : s.updatePing b.now b.sent = s := by
    unfold updatePing
    split
    · dsimp only
      rw [if_neg (by omega)]
    · rfl
  have hdispatch : s.dispatch b.now (.json (.keepAlive none b.sent)) = s.returns [] [] := by
    simp only [dispatch, narrowCast_natCast (show b.sent < 2 ^ 64 by omega), hping]
    split
    · rfl
    · rfl
  rw [hear, receiveDatagram_session, hdispatch]
  rfl

/-- A client in step with the server never changes its estimate, so it follows the delays if and only if all of them
    lie within two milliseconds of it from the start. -/
theorem ping_follows_iff {beats : List Beat} (h : ∀ b ∈ beats, s.InStep b) :
    Machine.Along hear PingFollows s beats ↔ ∀ b ∈ beats, |(s.lastPing : Int) - b.delay| ≤ 2 := by
  induction beats generalizing s with
  | nil => exact iff_of_true trivial (List.forall_mem_nil _)
  | cons b beats ih =>
    obtain ⟨hb, hbeats⟩ := List.forall_mem_cons.mp h
    have hrest := ih (s := { s with lastTimestamp := s.getTimeSyncronizedMS b.now }) hbeats
    rw [Machine.Along, List.forall_mem_cons, PingFollows, hear_eq hb, hrest]
    refine and_congr_left fun _ => ?_
    dsimp only
    omega

theorem ping_follows_steady :
    Machine.Along hear PingFollows { begun with lastPing := 20, lastSyncTime := 5 }
      [⟨1000, 21, 1021⟩, ⟨2000, 19, 2019⟩] :=
  (ping_follows_iff (by decide)).mpr (by decide)

/-- The delay falls from 100 to 20 milliseconds, and the estimate stays at 100. -/
theorem ping_ignores_delay :
    ¬∀ (s : Session) (beats : List Beat), s.started = true → 0 < s.lastSyncTime → (∀ b ∈ beats, s.InStep b) →
      Machine.Along hear PingFollows s beats := by
  intro h
  have hfollows := h { begun with lastPing := 100, lastSyncTime := 5 } [⟨1000, 20, 1020⟩] rfl (by decide) (by decide)
  exact absurd hfollows.1 (by decide)

end Session
end MultiSlider
