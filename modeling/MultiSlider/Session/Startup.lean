import MultiSlider.Session.Net

/-! The handshake of `startup` as a whole: its two waits, each in a loop that sends `Ready` again, over what comes from
    the socket. It reads one `SUCC` at most. Its own copies of `Ready` are answered too, and other players' datagrams
    come in between, but whatever is not `Start` after that ends it with an error. -/

namespace MultiSlider
namespace Session

/-- One wait of `startup`: a datagram with the local time it is handled at, or none within `DEFAULT_TIMEOUT_MS`. An
    empty datagram is taken for none. -/
def startupWait (s : Session) : Option (Nat × Payload) → Turn
  | none => s.startupTimeout
  | some (now, received) => if received = .text "" then s.startupTimeout else s.startupReceive now received

/-- The loops of `startup` over its waits. They end when it returns or throws. -/
def startupLoop : List (Option (Nat × Payload)) → Session → Turn
  | [], s => s.returns [] []
  | w :: waits, s =>
    if s.awaits then
      let t := s.startupWait w
      match t.fault with
      | none =>
        let u := startupLoop waits t.session
        ⟨u.session, t.sent ++ u.sent, t.callbacks ++ u.callbacks, u.fault⟩
      | some _ => t
    else s.returns [] []

/-- `startup` with the waits it goes through. -/
def startupOver (s : Session) (timeout : Nat) (waits : List (Option (Nat × Payload))) : Turn :=
  let t := s.startup timeout
  let u := startupLoop waits t.session
  ⟨u.session, t.sent ++ u.sent, t.callbacks ++ u.callbacks, u.fault⟩

/-- What `startup` hears in a wait. -/
def heard (w : Option (Nat × Payload)) : Option (Nat × Payload) := w.filter (·.2 ≠ .text "")

/-- The datagrams that are heard in the waits. -/
def datagrams (waits : List (Option (Nat × Payload))) : List Payload := (waits.map heard).reduceOption.map (·.2)

/-! The two errors of `startup`. -/

def startupFailed : Fault := .runtimeError "Session[Startup]: Failed to get response from server"

def startupUnexpected : Fault := .runtimeError "Session[Startup]: Unexpected server response!"

/-- `startup` has returned with `mStarted` set. -/
def HasStarted (t : Turn) : Prop :=
  t.fault = none ∧ t.session.startupPhase = .finished ∧ t.session.started = true

/-- With `Start` among the datagrams `startup` returns, without it only the timeout ends it. -/
def Tolerates (run : List (Option (Nat × Payload)) → Turn) (waits : List (Option (Nat × Payload))) : Prop :=
  (.json .start ∈ datagrams waits → HasStarted (run waits)) ∧
    (.json .start ∉ datagrams waits →
      ∃ n, ∀ k, n ≤ k → (run (waits ++ List.replicate k none)).fault = some startupFailed)

/-- Nothing comes, or the first datagram is `Start`. -/
def StartFirst (received : List Payload) : Prop := received = [] ∨ received.head? = some (.json .start)

instance (received : List Payload) : Decidable (StartFirst received) :=
  inferInstanceAs (Decidable (received = [] ∨ received.head? = some (.json .start)))

/-- Nothing comes but for one `SUCC`, or the first datagram, that `SUCC` left out, is `Start`. -/
def Orderly (received : List Payload) : Prop :=
  StartFirst (if received.head? = some (.text responseSucc) then received.tail else received)

instance (received : List Payload) : Decidable (Orderly received) :=
  inferInstanceAs
    (Decidable (StartFirst (if received.head? = some (.text responseSucc) then received.tail else received)))

variable {s : Session} {waits : List (Option (Nat × Payload))} {time timeout : Nat}

@[simp] theorem heard_none : heard none = none := rfl

@[simp] theorem heard_heard (w : Option (Nat × Payload)) : heard (heard w) = heard w := by
  simp [heard, Option.filter_filter]

theorem heard_some {now : Nat} {received : Payload} (hne : received ≠ .text "") :
    heard (some (now, received)) = some (now, received) := by
  simp [heard, hne]

theorem ne_of_heard {now : Nat} {received : Payload} (h : heard (some (now, received)) = some (now, received)) :
    received ≠ .text "" := by
  simpa [heard] using h

theorem startupWait_heard (s : Session) (w : Option (Nat × Payload)) : s.startupWait (heard w) = s.startupWait w := by
  rcases w with _ | ⟨now, received⟩
  · rfl
  · by_cases hempty : received = .text ""
    · subst hempty
      rfl
    · rw [heard_some hempty]

/-- `startup` goes by what it hears. -/
theorem startupLoop_heard (waits : List (Option (Nat × Payload))) (s : Session) :
    startupLoop (waits.map heard) s = startupLoop waits s := by
  induction waits generalizing s with
  | nil => rfl
  | cons w waits ih =>
    rw [List.map_cons, startupLoop, startupLoop, startupWait_heard]
    dsimp only
    rw [ih]

@[simp] theorem datagrams_heard (waits : List (Option (Nat × Payload))) :
    datagrams (waits.map heard) = datagrams waits := by
  unfold datagrams
  rw [List.map_map]
  congr 3
  exact funext heard_heard

/-! ### Silence -/

/-- A wait of `startup` that ends with nothing goes on alike in both of its loops. -/
def IsWait (phase : Nat → StartupPhase) (timeout : Nat) : Prop :=
  phase = (.awaitingResponse · timeout) ∨ phase = (.awaitingStart · timeout)

variable {phase : Nat → StartupPhase}

theorem awaits_of_phase (hphase : IsWait phase timeout) (h : s.startupPhase = phase time) : s.awaits = true := by
  unfold awaits
  rcases hphase with rfl | rfl
  · rw [h]
  · rw [h]

theorem startupTimeout_of_phase (hphase : IsWait phase timeout) (h : s.startupPhase = phase time) :
    s.startupTimeout = if time + defaultTimeoutMs > timeout then
      { s with startupPhase := .finished }.throws startupFailed
    else { s with startupPhase := phase (time + defaultTimeoutMs) }.returns [s.readyMessage] [] := by
  unfold startupTimeout
  rcases hphase with rfl | rfl
  · rw [h]
    rfl
  · rw [h]
    rfl

/-- Waits without a datagram, as long as the time allows: `Ready` is sent again after each. -/
theorem startupLoop_silent (hphase : IsWait phase timeout) (h : s.startupPhase = phase time) (n : Nat)
    (htime : time + n * defaultTimeoutMs ≤ timeout) :
    (startupLoop (List.replicate n none ++ waits) s).session =
        (startupLoop waits { s with startupPhase := phase (time + n * defaultTimeoutMs) }).session ∧
      (startupLoop (List.replicate n none ++ waits) s).fault =
        (startupLoop waits { s with startupPhase := phase (time + n * defaultTimeoutMs) }).fault := by
  induction n generalizing s time with
  | zero =>
    have hself : { s with startupPhase := phase (time + 0 * defaultTimeoutMs) } = s := by
      rw [Nat.zero_mul, Nat.add_zero, ← h]
    rw [hself]
    exact ⟨rfl, rfl⟩
  | succ n ih =>
    have hmul : (n + 1) * defaultTimeoutMs = defaultTimeoutMs + n * defaultTimeoutMs := by
      rw [Nat.succ_mul, Nat.add_comm]
    rw [hmul, ← Nat.add_assoc] at htime
    rw [hmul, ← Nat.add_assoc, List.replicate_succ, List.cons_append, startupLoop,
      if_pos (awaits_of_phase hphase h), startupWait, startupTimeout_of_phase hphase h, if_neg (by omega)]
    exact ih rfl htime

/-- Silence that lasts longer than the time allows ends `startup` with the timeout error. -/
theorem startupLoop_expired (hphase : IsWait phase timeout) (h : s.startupPhase = phase time) {n : Nat}
    (htime : timeout < time + n * defaultTimeoutMs) (hbefore : time ≤ timeout) :
    (startupLoop (List.replicate n none) s).fault = some startupFailed := by
  induction n generalizing s time with
  | zero => omega
  | succ n ih =>
    rw [Nat.succ_mul] at htime
    rw [List.replicate_succ, startupLoop, if_pos (awaits_of_phase hphase h), startupWait,
      startupTimeout_of_phase hphase h]
    by_cases hover : time + defaultTimeoutMs > timeout
    · rw [if_pos hover]
      rfl
    · rw [if_neg hover]
      exact ih rfl (by omega) (by omega)

/-- The waits up to the first datagram. -/
theorem waits_split (waits : List (Option (Nat × Payload))) : (∃ n, waits = List.replicate n none) ∨
    ∃ n arrival rest, waits = List.replicate n none ++ some arrival :: rest := by
  induction waits with
  | nil => exact Or.inl ⟨0, rfl⟩
  | cons w waits ih =>
    cases w with
    | some arrival => exact Or.inr ⟨0, arrival, waits, rfl⟩
    | none =>
      rcases ih with ⟨n, rfl⟩ | ⟨n, arrival, rest, rfl⟩
      · exact Or.inl ⟨n + 1, rfl⟩
      · exact Or.inr ⟨n + 1, arrival, rest, rfl⟩

@[simp] theorem datagrams_silent (n : Nat) : datagrams (List.replicate n none ++ waits) = datagrams waits := by
  induction n with
  | zero => rfl
  | succ n ih => exact ih

@[simp] theorem datagrams_replicate (n : Nat) : datagrams (List.replicate n none) = [] := by
  induction n with
  | zero => rfl
  | succ n ih => exact ih

theorem datagrams_some {now : Nat} {received : Payload} (hne : received ≠ .text "") :
    datagrams (some (now, received) :: waits) = received :: datagrams waits := by
  unfold datagrams
  rw [List.map_cons, heard_some hne]
  rfl

/-- Silence is tolerated: the timeout ends it. -/
theorem tolerates_silent (hphase : IsWait phase timeout) (h : s.startupPhase = phase time) (hbefore : time ≤ timeout)
    (n : Nat) : Tolerates (startupLoop · s) (List.replicate n none) := by
  refine ⟨fun hstart => ?_, fun _ => ⟨timeout + 1, fun k hk => ?_⟩⟩
  · rw [datagrams_replicate] at hstart
    cases hstart
  · rw [← List.replicate_add]
    refine startupLoop_expired hphase h ?_ hbefore
    have hlong : n + k ≤ (n + k) * defaultTimeoutMs := Nat.le_mul_of_pos_right _ (by decide)
    omega

/-! ### Datagrams -/

theorem tolerates_append_silent (hphase : IsWait phase timeout) (h : s.startupPhase = phase time) (n : Nat)
    (htime : time + n * defaultTimeoutMs ≤ timeout) :
    Tolerates (startupLoop · s) (List.replicate n none ++ waits) ↔
      Tolerates (startupLoop · { s with startupPhase := phase (time + n * defaultTimeoutMs) }) waits := by
  unfold Tolerates HasStarted
  simp only [datagrams_silent, List.append_assoc, (startupLoop_silent hphase h n htime).1,
    (startupLoop_silent hphase h n htime).2]

theorem startupLoop_finish {now : Nat} {received : Payload} (hawaits : s.awaits = true) (hne : received ≠ .text "")
    (hwait : s.startupReceive now received = s.finishStartup now received) :
    (received = .json .start → HasStarted (startupLoop (some (now, received) :: waits) s)) ∧
      (received ≠ .json .start → (startupLoop (some (now, received) :: waits) s).fault = some startupUnexpected) := by
  rw [startupLoop, if_pos hawaits, startupWait, if_neg hne, hwait]
  constructor
  · rintro rfl
    cases waits with
    | nil => exact ⟨rfl, rfl, rfl⟩
    | cons w waits => exact ⟨rfl, rfl, rfl⟩
  · intro hother
    unfold finishStartup
    split
    · exact absurd rfl hother
    · rfl

/-- A datagram that `startup` takes for the one that must be `Start`. -/
theorem tolerates_finish {now : Nat} {received : Payload} (hawaits : s.awaits = true) (hne : received ≠ .text "")
    (hwait : s.startupReceive now received = s.finishStartup now received) :
    Tolerates (startupLoop · s) (some (now, received) :: waits) ↔ received = .json .start := by
  constructor
  · intro h
    by_contra hother
    have hfault (later : List (Option (Nat × Payload))) :
        (startupLoop (some (now, received) :: later) s).fault = some startupUnexpected :=
      (startupLoop_finish hawaits hne hwait).2 hother
    by_cases hstart : .json .start ∈ datagrams (some (now, received) :: waits)
    · cases (hfault waits).symm.trans (h.1 hstart).1
    · obtain ⟨n, hn⟩ := h.2 hstart
      exact absurd ((hfault _).symm.trans (hn n le_rfl)) (by decide)
  · rintro rfl
    refine ⟨fun _ => (startupLoop_finish hawaits hne hwait).1 rfl, fun hnone => ?_⟩
    rw [datagrams_some hne] at hnone
    exact absurd List.mem_cons_self hnone

/-- After `SUCC`, with no empty datagrams. -/
theorem tolerates_awaitingStart (h : s.startupPhase = .awaitingStart time timeout) (hheard : ∀ w ∈ waits, heard w = w)
    (htime : time + waits.count none * defaultTimeoutMs ≤ timeout) :
    Tolerates (startupLoop · s) waits ↔ StartFirst (datagrams waits) := by
  have hphase : IsWait (.awaitingStart · timeout) timeout := Or.inr rfl
  rcases waits_split waits with ⟨n, rfl⟩ | ⟨n, ⟨now, received⟩, rest, rfl⟩
  · rw [datagrams_replicate]
    exact iff_of_true (tolerates_silent hphase h (by omega) n) (Or.inl rfl)
  · rw [List.count_append, List.count_replicate_self, Nat.add_mul] at htime
    have hne : received ≠ .text "" := ne_of_heard (hheard (some (now, received)) (by simp))
    rw [tolerates_append_silent hphase h n (by omega), tolerates_finish rfl hne rfl, datagrams_silent,
      datagrams_some hne]
    simp [StartFirst]

/-- Before the first datagram, with no empty ones. -/
theorem tolerates_awaitingResponse (h : s.startupPhase = .awaitingResponse time timeout)
    (hheard : ∀ w ∈ waits, heard w = w) (htime : time + waits.count none * defaultTimeoutMs ≤ timeout) :
    Tolerates (startupLoop · s) waits ↔ Orderly (datagrams waits) := by
  have hphase : IsWait (.awaitingResponse · timeout) timeout := Or.inl rfl
  unfold Orderly
  rcases waits_split waits with ⟨n, rfl⟩ | ⟨n, ⟨now, received⟩, rest, rfl⟩
  · rw [datagrams_replicate]
    exact iff_of_true (tolerates_silent hphase h (by omega) n) (Or.inl rfl)
  · have hne : received ≠ .text "" := ne_of_heard (hheard (some (now, received)) (by simp))
    rw [List.count_append, List.count_replicate_self, Nat.add_mul] at htime
    rw [tolerates_append_silent hphase h n (by omega), datagrams_silent, datagrams_some hne, List.head?_cons,
      List.tail_cons]
    by_cases hsucc : received = .text responseSucc
    · subst hsucc
      rw [if_pos rfl]
      rw [List.count_cons_of_ne (by simp)] at htime
      have hafter : Tolerates
          (startupLoop · { s with startupPhase := .awaitingStart (time + n * defaultTimeoutMs) timeout }) rest ↔
          StartFirst (datagrams rest) :=
        tolerates_awaitingStart rfl (fun w hw => hheard w (by simp [hw])) (by omega)
      rw [← hafter]
      -- The first `SUCC` only moves `startup` from one loop to the next.
      have hloop (waits : List (Option (Nat × Payload))) :
          startupLoop (some (now, .text responseSucc) :: waits)
            { s with startupPhase := .awaitingResponse (time + n * defaultTimeoutMs) timeout } =
          startupLoop waits { s with startupPhase := .awaitingStart (time + n * defaultTimeoutMs) timeout } := rfl
      unfold Tolerates
      simp only [List.cons_append, hloop, datagrams_some hne, List.mem_cons, reduceCtorEq, false_or]
    · have hwait : { s with
            startupPhase := .awaitingResponse (time + n * defaultTimeoutMs) timeout }.startupReceive now received =
          { s with
            startupPhase := .awaitingResponse (time + n * defaultTimeoutMs) timeout }.finishStartup now received :=
        if_neg hsucc
      rw [if_neg (by simpa using hsucc), tolerates_finish rfl hne hwait]
      simp [StartFirst]

/-- Where the datagrams come before the timeout, `startup` tolerates them if and only if the first one, but for one
    `SUCC` ahead of it, is `Start`. -/
theorem startup_tolerates_iff (s : Session) (htime : (waits.map heard).count none * defaultTimeoutMs ≤ timeout) :
    Tolerates (s.startupOver timeout) waits ↔ Orderly (datagrams waits) := by
  have hheard : ∀ w ∈ waits.map heard, heard w = w := by
    intro w hw
    obtain ⟨w, -, rfl⟩ := List.mem_map.mp hw
    exact heard_heard w
  have h : Tolerates (startupLoop · (s.startup timeout).session) (waits.map heard) ↔
      Orderly (datagrams (waits.map heard)) := tolerates_awaitingResponse rfl hheard (by omega)
  have hmore (k : Nat) : waits.map heard ++ List.replicate k none = (waits ++ List.replicate k none).map heard := by
    rw [List.map_append, List.map_replicate, heard_none]
  rw [datagrams_heard] at h
  rw [← h]
  unfold Tolerates
  simp only [datagrams_heard, hmore, startupLoop_heard]
  exact Iff.rfl

/-- A slow answer: the first wait ends with nothing, then `SUCC` and `Start` come. -/
def slowAnswer : List (Option (Nat × Payload)) := [none, some (0, .text responseSucc), some (5, .json .start)]

theorem startup_tolerates_slow : HasStarted ((create "p" 0).startupOver 10000 slowAnswer) := by
  have htolerates : Tolerates ((create "p" 0).startupOver 10000) slowAnswer :=
    (startup_tolerates_iff (create "p" 0) (by decide)).mpr (by decide)
  exact htolerates.1 (by decide)

/-- Two copies of `Ready` are answered by two `SUCC`s, and `Start` follows when the other player is ready as well:
    `startup` throws at the second `SUCC`. -/
theorem startup_rejects_second_succ :
    ¬∀ (s : Session) (timeout : Nat) (waits : List (Option (Nat × Payload))),
      (waits.map heard).count none * defaultTimeoutMs ≤ timeout →
      (∀ received ∈ datagrams waits, received = .text responseSucc ∨ received = .json .start) →
      Tolerates (s.startupOver timeout) waits := by
  intro h
  have htolerates := h (create "p" 0) 10000
    [none, some (0, .text responseSucc), some (0, .text responseSucc), some (5, .json .start)] (by decide) (by decide)
  obtain ⟨hreturns, -, -⟩ := htolerates.1 (by decide)
  exact absurd hreturns (by decide)

end Session

end MultiSlider
