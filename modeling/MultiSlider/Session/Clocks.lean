import MultiSlider.Session.Broadcasts
import MultiSlider.Session.Net

/-! Which broadcasts a session takes, told from the readings of the clocks they were stamped with. The clients
    stamp with their local time of day: it goes back to zero at midnight, and it differs from one client to the
    next, whatever `ClockSync` has found out. -/

namespace MultiSlider

open LastWriter (Registers)

/-- The milliseconds of a day. -/
def dayMs : Nat := 24 * 60 * 60 * 1000

/-- `getTimeLocalMS`: the `time_of_day()` at a real time. -/
def getTimeLocalMS (time : Nat) : Nat := time % dayMs

namespace Broadcasts

/-- Clients that stamp with `getTimeLocalMS`. -/
def timeOfDay {client : Address → Session} (names : Function.Injective fun c => (client c).playerName) : Group :=
  ⟨client, fun _ => getTimeLocalMS, names⟩

variable {accepts : Int → Bool} {g : Group} {σ : Broadcasts} {r : Registers String Int String} {c : Address}

/-! ### The broadcasts of one client -/

/-- The call whose datagram the session gets from the client. -/
def arrived (c : Address) (σ : Broadcasts) : Action → List Call
  | .arrive c' _ => if c' = c then ((σ.links c).take 1).map (·.1) else []
  | _ => []

/-- A link delivers what was called for, in order. -/
theorem links_fifo (accepts : Int → Bool) (σ : Broadcasts) (hstarted : (g.client c).started = true) (as : List Action) :
    ((σ.links c).map (·.1)) ++ callsOf c as =
      Machine.outputs (step accepts g) (arrived c) σ as ++ ((Machine.run (step accepts g) σ as).links c).map (·.1) := by
  induction as generalizing σ with
  | nil => simp [callsOf, Machine.outputs]
  | cons a as ih =>
    rw [Machine.outputs, Machine.run_cons, List.append_assoc, ← ih]
    cases a with
    | call k =>
      by_cases hk : k.client = c
      · subst hk
        have hsent : g.sent k =
            [.json (.update (g.name k.client) (g.clock k.client k.time) k.forced k.data (some k.sharedData))] := by
          rw [Group.sent_eq, if_pos hstarted]
        simp [callsOf, step, arrived, hsent]
      · simp [callsOf, step, arrived, hk, Function.update_of_ne (Ne.symm hk)]
    | arrive c' now =>
      by_cases hc : c' = c
      · subst hc
        cases hlink : σ.links c' with
        | nil => simp [callsOf, step, arrived, hlink]
        | cons l rest => simp [callsOf, step, arrived, hlink]
      · cases hlink : σ.links c' with
        | nil => simp [callsOf, step, arrived, hlink, hc]
        | cons l rest => simp [callsOf, step, arrived, hlink, hc, Function.update_of_ne (Ne.symm hc)]
    | other e =>
      have hlinks : (step accepts g σ (.other e)).links = σ.links := by
        unfold step
        dsimp only
        split
        · rfl
        · rfl
      simp [callsOf, arrived, hlinks]

theorem takes_write_iff {k : Call} : r.Takes (g.write k) ↔ r.seen (g.name k.client) < g.stamp k := by
  unfold Registers.Takes
  rw [Group.write_stamp]
  rfl

/-- An `Update` of a live player is accepted if it is newer than all that its client has sent. -/
theorem accepted_arrive_iff (h : σ.Good g r) (hplays : σ.actor.Plays (g.name c)) {now : Int} {k : Call}
    {payload : Payload} {rest : List (Call × Payload)} (hlink : σ.links c = (k, payload) :: rest) :
    Accepted accepts g c σ (.arrive c now) ↔ r.Takes (g.write k) := by
  obtain ⟨hk, hpayload⟩ := h.links c (k, payload) (hlink ▸ List.mem_cons_self)
  simp only at hk hpayload
  subst hk hpayload
  obtain ⟨hrunning, player, hlive⟩ := hplays
  have hseen := h.holds.seen _ player hlive
  constructor
  · intro haccepted
    obtain ⟨⟨player', hlive', hnewer⟩, -⟩ := haccepted rfl k _ rest hlink
    rw [hlive] at hlive'
    cases hlive'
    rw [hseen] at hnewer
    exact takes_write_iff.mpr hnewer
  · intro htakes _ k' payload' rest' hlink'
    rw [hlink] at hlink'
    cases hlink'
    have hnewer : player.updateTimestamp < g.stamp k := by
      rw [hseen]
      exact takes_write_iff.mp htakes
    refine ⟨⟨player, hlive, hnewer⟩, ?_⟩
    rw [Group.stamp_eq] at hnewer
    have hstopped := h.stopped.not_stopped hlive
    -- The entry that is stored is the one of this call.
    have hactor : (step accepts g σ (.arrive k.client now)).actor = (σ.actor.receive accepts now k.client
        (.json (.update (g.name k.client) (g.clock k.client k.time) k.forced k.data (some k.sharedData)))).1 := by
      unfold step
      simp only [hlink]
      rfl
    rw [hactor, SessionActor.receive_update hstopped hrunning hlive, if_pos hnewer]
    refine ⟨_, AList.lookup_replace_self (AList.mem_of_lookup hlive), ?_, rfl⟩
    dsimp only
    exact (g.stamp_eq k).symm

/-- What arrives from another client leaves the register of this one as it was. -/
theorem seen_arrive_other (h : σ.Good g r) {c' : Address} (hc : c' ≠ c) (now : Int) :
    (Machine.run Registers.write r ((heard g σ (.arrive c' now)).map g.write)).seen (g.name c) = r.seen (g.name c) := by
  cases hlink : σ.links c' with
  | nil => simp [heard, hlink]
  | cons l rest =>
    obtain ⟨k, payload⟩ := l
    obtain ⟨hk, -⟩ := h.links c' (k, payload) (hlink ▸ List.mem_cons_self)
    have hname : (g.write k).writer ≠ g.name c := fun heq => hc (hk ▸ g.names heq)
    simp only [heard, hlink]
    split
    · rw [List.map_singleton, Machine.run_cons, Machine.run_nil, Registers.write_seen]
      split
      · exact Function.update_of_ne (Ne.symm hname) _ _
      · rfl
    · rfl

/-- Along a run, all that arrives from a client is accepted if and only if the stamps increase. -/
theorem accepted_iff_chain (h : σ.Good g r) {as : List Action}
    (hlive : Machine.Along (step accepts g) (StaysLive g c) σ as) :
    Machine.Along (step accepts g) (Accepted accepts g c) σ as ↔
      List.IsChain (· < ·) (r.seen (g.name c) :: (Machine.outputs (step accepts g) (arrived c) σ as).map g.stamp) := by
  induction as generalizing σ r with
  | nil => simp [Machine.Along, Machine.outputs]
  | cons a as ih =>
    obtain ⟨hplays, hrest⟩ := hlive
    rw [Machine.Along, Machine.outputs, ih (h.step accepts a) hrest]
    -- An action after which the register of the client is what it was.
    have other (haccepted : Accepted accepts g c σ a) (hnone : arrived c σ a = [])
        (hseen : (Machine.run Registers.write r ((heard g σ a).map g.write)).seen (g.name c) = r.seen (g.name c)) :
        Accepted accepts g c σ a ∧ List.IsChain (· < ·)
          ((Machine.run Registers.write r ((heard g σ a).map g.write)).seen (g.name c) ::
            (Machine.outputs (step accepts g) (arrived c) (step accepts g σ a) as).map g.stamp) ↔
        List.IsChain (· < ·) (r.seen (g.name c) ::
          (arrived c σ a ++ Machine.outputs (step accepts g) (arrived c) (step accepts g σ a) as).map g.stamp) := by
      rw [hseen, hnone, List.nil_append, and_iff_right haccepted]
    cases a with
    | call k => exact other trivial rfl rfl
    | other e => exact other trivial rfl rfl
    | arrive c' now =>
      by_cases hc : c' = c
      · subst hc
        cases hlink : σ.links c' with
        | nil =>
          refine other ?_ (by simp [arrived, hlink]) (by simp [heard, hlink])
          intro _ k payload rest hlink'
          rw [hlink] at hlink'
          cases hlink'
        | cons l rest =>
          obtain ⟨k, payload⟩ := l
          obtain ⟨hk, -⟩ := h.links c' (k, payload) (hlink ▸ List.mem_cons_self)
          have hplays := hplays rfl
          have hheard : heard g σ (.arrive c' now) = [k] := by simp [heard, hlink, hplays]
          have harrived : arrived c' σ (.arrive c' now) = [k] := by simp [arrived, hlink]
          rw [accepted_arrive_iff h hplays hlink, hheard, harrived]
          simp only at hk
          subst hk
          rw [List.map_singleton, Machine.run_cons, Machine.run_nil, List.singleton_append, List.map_cons,
            Registers.write_seen, List.isChain_cons_cons]
          by_cases htakes : r.Takes (g.write k)
          · rw [if_pos htakes, and_iff_right htakes, and_iff_right (takes_write_iff.mp htakes)]
            rw [show (g.write k).writer = g.name k.client from rfl, Function.update_self, Group.write_stamp]
          · exact iff_of_false (fun h => htakes h.1) fun h => htakes (takes_write_iff.mpr h.1)
      · exact other (fun heq => absurd heq hc) (by simp [arrived, hc]) (seen_arrive_other h hc now)

/-- What a run leaves on the links and in the registers. -/
theorem good_run (accepts : Int → Bool) (g : Group) (id : Nat) (players : List String) (as : List Action) :
    (Machine.run (step accepts g) (start id players) as).Good g (Machine.run Registers.write SessionActor.noWrites
      ((Machine.outputs (step accepts g) (heard g) (start id players) as).map g.write)) := by
  induction as using List.reverseRecOn with
  | nil => exact .start id players
  | append_singleton as a ih =>
    rw [Machine.run_append, Machine.outputs_append, List.map_append, Machine.run_append]
    have hstep := ih.step accepts a
    simpa [Machine.outputs] using hstep

theorem toLong_getTimeLocalMS (time : Nat) : toLong (getTimeLocalMS time) = getTimeLocalMS time := by
  have hday : getTimeLocalMS time < dayMs := Nat.mod_lt _ (by decide)
  have hdayMs : dayMs = 86400000 := by decide
  unfold toLong
  rw [Int.bmod_def]
  omega

/-- Along a run in which a client's player stays live and nothing that the client has sent is still on its way,
    each of its broadcasts is accepted, and taken for a sign of life, if and only if each was made at a later
    time of day than the one before it, the first after midnight. -/
theorem broadcasts_accepted_iff (accepts : Int → Bool) (id : Nat) (players : List String) {client : Address → Session}
    (names : Function.Injective fun c => (client c).playerName) {c : Address} (hstarted : (client c).started = true)
    {as : List Action}
    (hlive : Machine.Along (step accepts (timeOfDay names)) (StaysLive (timeOfDay names) c) (start id players) as)
    (hdelivered : (Machine.run (step accepts (timeOfDay names)) (start id players) as).links c = []) :
    Machine.Along (step accepts (timeOfDay names)) (Accepted accepts (timeOfDay names) c) (start id players) as ↔
      List.IsChain (· < ·) (0 :: (callsOf c as).map fun k => getTimeLocalMS k.time) := by
  have hfifo := links_fifo (g := timeOfDay names) accepts (start id players) hstarted as
  rw [hdelivered] at hfifo
  have harrived := hfifo.symm
  simp only [List.map_nil, List.append_nil, start, List.nil_append] at harrived
  rw [accepted_iff_chain (.start id players) hlive]
  change List.IsChain (· < ·) (0 :: (Machine.outputs _ (arrived c) ⟨.create id players, fun _ => []⟩ as).map _) ↔ _
  rw [harrived]
  have hstamps : (callsOf c as).map (Group.stamp (timeOfDay names)) =
      ((callsOf c as).map fun k => getTimeLocalMS k.time).map Nat.cast := by
    rw [List.map_map]
    exact List.map_congr_left fun k _ => (Group.stamp_eq _ k).trans (toLong_getTimeLocalMS k.time)
  rw [hstamps, show (0 : Int) = ((0 : Nat) : Int) from rfl, ← List.map_cons, List.isChain_map]
  simp only [Nat.cast_lt]

/-- A started session at every address. -/
def started (c : Address) : Session := { Session.create (Net.letters c) 0 with started := true }

theorem started_names : Function.Injective fun c => (started c).playerName := Net.letters.injective

/-- One player gets ready and broadcasts at two times; both broadcasts arrive. -/
def twoBroadcasts (time time' : Nat) : List Action :=
  [.other (.receive 0 0 (.json (.ready (Net.letters 0)))), .call ⟨0, time, "x", "", false⟩, .arrive 0 0,
    .call ⟨0, time', "y", "", false⟩, .arrive 0 1]

theorem broadcasts_accepted_within :
    Machine.Along (step (fun _ => true) (timeOfDay started_names))
      (Accepted (fun _ => true) (timeOfDay started_names) 0)
      (start 0 [Net.letters 0]) (twoBroadcasts 86399998 86399999) := by
  exact (broadcasts_accepted_iff (fun _ => true) 0 [Net.letters 0] started_names rfl (by decide +kernel)
    (by decide +kernel)).mpr (by decide +kernel)

/-- A broadcast before midnight and one after: the second is dropped. -/
theorem broadcast_after_midnight_dropped :
    ¬∀ (accepts : Int → Bool) (id : Nat) (players : List String) (client : Address → Session)
      (names : Function.Injective fun c => (client c).playerName) (c : Address), (client c).started = true →
      ∀ as : List Action, (callsOf c as).Pairwise (fun k k' => k.time < k'.time) →
      Machine.Along (step accepts (timeOfDay names)) (StaysLive (timeOfDay names) c) (start id players) as →
      (Machine.run (step accepts (timeOfDay names)) (start id players) as).links c = [] →
      Machine.Along (step accepts (timeOfDay names)) (Accepted accepts (timeOfDay names) c) (start id players) as := by
  intro h
  have hlive : Machine.Along (step (fun _ => true) (timeOfDay started_names)) (StaysLive (timeOfDay started_names) 0)
      (start 0 [Net.letters 0]) (twoBroadcasts 86399999 86400000) := by decide +kernel
  have hall := h (fun _ => true) 0 [Net.letters 0] started started_names 0 rfl (twoBroadcasts 86399999 86400000)
    (by decide +kernel) hlive (by decide +kernel)
  have hchain := (accepted_iff_chain (.start 0 [Net.letters 0]) hlive).mp hall
  exact absurd hchain (by decide +kernel)

/-! ### Synchronized clients -/

end Broadcasts

namespace Session

/-- The session after an exact `ClockSync` exchange, in which request and answer take `delay` each; `clock` is
    what its local clock reads when the server's reads a time. -/
def clockSync (s : Session) (clock : Nat → Nat) (time delay : Nat) : Session :=
  let request := (s.sendClockSync (clock time)).1
  (request.receiveClockSync (clock (time + 2 * delay)) request.clockSyncId
    (request.getTimeSyncronizedMS (clock time)) (time + delay : Nat)).session

/-- The session has completed an exact `ClockSync`, in which its synchronized time did not wrap. -/
def Synchronized (s : Session) (clock : Nat → Nat) : Prop :=
  ∃ s₀ : Session, ∃ time delay, 0 < delay ∧ 0 ≤ clock time + s₀.timeShift ∧
    clock (time + 2 * delay) + s₀.timeShift < 2 ^ 64 ∧ s = s₀.clockSync clock time delay

variable (s : Session) {clock : Nat → Nat} {offset : Int} {time delay : Nat}

/-- An exact `ClockSync` finds out by how much the clock is ahead of the server's. -/
theorem clockSync_eq (hclock : ∀ time, (clock time : Int) = time + offset) (hdelay : 0 < delay)
    (hlow : 0 ≤ clock time + s.timeShift) (hhigh : clock (time + 2 * delay) + s.timeShift < 2 ^ 64) :
    s.clockSync clock time delay = { (s.sendClockSync (clock time)).1 with
      lastSyncTime := (clock (time + 2 * delay) + s.timeShift).toNat
      lastPing := delay
      timeShift := toInt64 (-offset) } := by
  have hrequest := hclock time
  have hanswer := hclock (time + 2 * delay)
  push_cast at hanswer
  have hshift : (s.sendClockSync (clock time)).1.timeShift = s.timeShift := rfl
  have hid : narrowCast 8 ((s.sendClockSync (clock time)).1.clockSyncId : Int) =
      some (s.sendClockSync (clock time)).1.clockSyncId := narrowCast_clockSyncId
  unfold clockSync
  generalize (s.sendClockSync (clock time)).1 = request at hshift hid
  -- Neither reading wraps, so the measured round trip is exact.
  have hsent : (request.getTimeSyncronizedMS (clock time) : Int) = clock time + s.timeShift := by
    rw [getTimeSyncronizedMS_eq (by omega) (by omega), hshift]
  have hreceived : (request.getTimeSyncronizedMS (clock (time + 2 * delay)) : Int) =
      clock (time + 2 * delay) + s.timeShift := by
    rw [getTimeSyncronizedMS_eq (by omega) (by omega), hshift]
  have htime : narrowCast 64 (request.getTimeSyncronizedMS (clock time) : Int) =
      some (request.getTimeSyncronizedMS (clock time)) := narrowCast_natCast (by omega)
  have hping : (request.getTimeSyncronizedMS (clock (time + 2 * delay)) -
      request.getTimeSyncronizedMS (clock time)) / 2 =
      delay := by omega
  have hlast : request.getTimeSyncronizedMS (clock (time + 2 * delay)) =
      (clock (time + 2 * delay) + s.timeShift).toNat := by
    omega
  -- The old shift cancels out.
  have hnew : request.timeShift + ((time + delay : Nat) - request.getTimeSyncronizedMS (clock time) - delay) =
      -offset := by
    omega
  unfold receiveClockSync
  simp only [hid, if_true, htime]
  rw [if_pos (by omega), toInt64_shift, hping, hlast, hnew]
  rfl

variable {s}

theorem Synchronized.timeShift (h : s.Synchronized clock) (hclock : ∀ time, (clock time : Int) = time + offset) :
    s.timeShift = toInt64 (-offset) := by
  obtain ⟨s₀, t, delay, hdelay, hlow, hhigh, heq⟩ := h
  rw [heq, s₀.clockSync_eq hclock hdelay hlow hhigh]

/-- The synchronized time of a session that has completed an exact `ClockSync` is that of the server. -/
theorem Synchronized.getTimeSyncronizedMS (h : s.Synchronized clock)
    (hclock : ∀ time, (clock time : Int) = time + offset) (htime : time < 2 ^ 64) :
    s.getTimeSyncronizedMS (clock time) = time := by
  have hshift := h.timeShift hclock
  unfold Session.getTimeSyncronizedMS
  rw [hshift, add_toInt64_emod, hclock time, Int.add_neg_cancel_right]
  omega

end Session

namespace Broadcasts

variable {g : Group} {r : Registers String Int String}

/-! ### The shared data of several clients -/

/-- A call is newer than all that its client has sent. -/
theorem takes_run_iff {k : Call} {ks : List Call} :
    (Machine.run Registers.write SessionActor.noWrites (ks.map g.write)).Takes (g.write k) ↔
      0 < g.stamp k ∧ ∀ k' ∈ ks, k'.client = k.client → g.stamp k' < g.stamp k := by
  rw [takes_write_iff, Registers.run_seen_lt_iff, show SessionActor.noWrites.seen _ = 0 from rfl]
  refine and_congr_right fun _ => ?_
  constructor
  · intro h k' hk' hclient
    have hlt := h (g.write k') (List.mem_map_of_mem hk') (congrArg g.name hclient)
    rw [Group.write_stamp] at hlt
    exact hlt
  · intro h w hw hwriter
    obtain ⟨k', hk', rfl⟩ := List.mem_map.mp hw
    rw [Group.write_stamp]
    exact h k' hk' (g.names hwriter)

/-- A call is newer than every shared write that was taken. -/
theorem stamp_run_iff {k : Call} {ks : List Call} :
    (Machine.run Registers.write SessionActor.noWrites (ks.map g.write)).stamp < g.stamp k ↔
      0 < g.stamp k ∧ ∀ w ∈ SessionActor.noWrites.taken (ks.map g.write), w.value.isSome → w.stamp < g.stamp k := by
  rw [Registers.run_stamp_lt_iff, show SessionActor.noWrites.stamp = 0 from rfl]

/-- A write that carries data leaves it in the shared register, unless it is refused or too old. -/
theorem write_value_iff {k : Call} (hshared : k.sharedData ≠ "") : (r.write (g.write k)).value = k.sharedData ↔
    r.value = k.sharedData ∨ r.Takes (g.write k) ∧ r.stamp < g.stamp k := by
  have hvalue : (g.write k).value = some k.sharedData := by simp [Group.write, Option.filter, hshared]
  rcases Registers.write_shared (r := r) (m := g.write k) with ⟨-, hsame, hold⟩ | ⟨htakes, hnewer, x, hx, -, hnew⟩
  · rw [hsame]
    refine ⟨Or.inl, fun h => h.elim (fun h => h) fun htaken => ?_⟩
    have hle := hold k.sharedData hvalue htaken.1
    rw [Group.write_stamp] at hle
    exact absurd htaken.2 (not_lt_of_ge hle)
  · rw [hvalue] at hx
    cases hx
    rw [Group.write_stamp] at hnewer
    exact iff_of_true hnew (Or.inr ⟨htakes, hnewer⟩)

/-- After an `Update` that carries shared data, the session holds that data if it held it before, or if the
    stamp is newer than all that the client has sent and than every shared write that was taken. -/
theorem shared_held_iff (accepts : Int → Bool) (g : Group) (id : Nat) (players : List String) (as : List Action)
    {now : Int} {k : Call} {payload : Payload} {rest : List (Call × Payload)} (hshared : k.sharedData ≠ "")
    (hlink : (Machine.run (step accepts g) (start id players) as).links k.client = (k, payload) :: rest) :
    let σ := Machine.run (step accepts g) (start id players) as
    let heard := Machine.outputs (step accepts g) (heard g) (start id players) as
    (step accepts g σ (.arrive k.client now)).actor.sharedStats.privateData = k.sharedData ↔
      σ.actor.sharedStats.privateData = k.sharedData ∨
      σ.actor.Plays (g.name k.client) ∧ 0 < g.stamp k ∧
        (∀ k' ∈ heard, k'.client = k.client → g.stamp k' < g.stamp k) ∧
        ∀ w ∈ SessionActor.noWrites.taken (heard.map g.write), w.value.isSome → w.stamp < g.stamp k := by
  intro σ heard'
  have hgood : σ.Good g (Machine.run Registers.write SessionActor.noWrites (heard'.map g.write)) :=
    good_run accepts g id players as
  have hafter := hgood.step accepts (.arrive k.client now)
  rw [hgood.holds.shared, hafter.holds.shared]
  have hheard : heard g σ (.arrive k.client now) = if σ.actor.Plays (g.name k.client) then [k] else [] := by
    simp only [Broadcasts.heard, σ, hlink]
  rw [hheard]
  dsimp only
  split
  · rename_i hplays
    rw [List.map_singleton, Machine.run_cons, Machine.run_nil, and_iff_right hplays, write_value_iff hshared,
      takes_run_iff, stamp_run_iff]
    refine or_congr_right ⟨?_, ?_⟩
    · rintro ⟨⟨hpositive, hown⟩, -, hall⟩
      exact ⟨hpositive, hown, hall⟩
    · rintro ⟨hpositive, hown, hall⟩
      exact ⟨⟨hpositive, hown⟩, hpositive, hall⟩
  · rename_i hplays
    rw [List.map_nil, Machine.run_nil]
    exact ⟨Or.inl, fun h => h.elim (fun h => h) fun hcond => absurd hcond.1 hplays⟩

/-- A started session that has synchronized a clock `offset` ahead of the server's. -/
def synchronized (offset : Nat) (c : Address) : Session :=
  { started c with clockSyncId := 1, lastSyncTime := 2 + offset, lastPing := 1, timeShift := -offset }

theorem synchronized_synchronized (offset : Nat) (hoffset : offset < 2 ^ 63) (c : Address) :
    (synchronized offset c).Synchronized fun time => time + offset := by
  have hshift : (started c).timeShift = 0 := rfl
  have hlow : 0 ≤ ((0 + offset : Nat) : Int) + (started c).timeShift := by
    rw [hshift]
    omega
  have hhigh : ((0 + 2 * 1 + offset : Nat) : Int) + (started c).timeShift < 2 ^ 64 := by
    rw [hshift]
    omega
  have hlast : (((0 + 2 * 1 + offset : Nat) : Int) + (started c).timeShift).toNat = 2 + offset := by
    rw [hshift]
    omega
  refine ⟨started c, 0, 1, by decide, hlow, hhigh, ?_⟩
  have hclock : ∀ time, ((time + offset : Nat) : Int) = time + offset := fun time => Nat.cast_add time offset
  rw [(started c).clockSync_eq hclock (by decide) hlow hhigh, hlast, toInt64_eq (by omega) (by omega)]
  rfl

/-- Clients that have started and synchronized, with clocks that are ahead of the server's. -/
def offsets (offset : Address → Nat) : Group where
  client c := synchronized (offset c) c
  clock c time := time + offset c
  names := Net.letters.injective

/-- Two players get ready. -/
def readyBoth : List Action :=
  [.other (.receive 0 0 (.json (.ready (Net.letters 0)))), .other (.receive 0 1 (.json (.ready (Net.letters 1))))]

/-- The second of two writes, by a clock that is further ahead. -/
theorem shared_held_newest :
    (step (fun _ => true) (offsets fun c => 1000 * c)
      (Machine.run (step (fun _ => true) (offsets fun c => 1000 * c)) (start 0 [Net.letters 0, Net.letters 1])
        (readyBoth ++ [.call ⟨0, 10, "", "x", false⟩, .arrive 0 0, .call ⟨1, 20, "", "y", false⟩]))
      (.arrive 1 1)).actor.sharedStats.privateData = "y" := by
  let as : List Action :=
    readyBoth ++ [.call ⟨0, 10, "", "x", false⟩, .arrive 0 0, .call ⟨1, 20, "", "y", false⟩]
  let k : Call := ⟨1, 20, "", "y", false⟩
  have hlink : (Machine.run (step (fun _ => true) (offsets fun c => 1000 * c))
      (start 0 [Net.letters 0, Net.letters 1]) as).links k.client =
      [(k, .json (.update (Net.letters 1) 1020 false "" (some "y")))] := by
    decide +kernel
  have hheld := @shared_held_iff (fun _ => true) (offsets fun c => 1000 * c) 0 [Net.letters 0, Net.letters 1] as 1
    k _ _ (by decide) hlink
  refine hheld.mpr (Or.inr ⟨?_, ?_, ?_, ?_⟩)
  · decide +kernel
  · decide +kernel
  · decide +kernel
  · decide +kernel

/-- A client whose clock is a second ahead writes; a later writer, whose `Update` comes after it, does not get
    through. -/
theorem later_shared_lost :
    ¬∀ (accepts : Int → Bool) (id : Nat) (players : List String) (g : Group) (offset : Address → Int),
      (∀ c time, (g.clock c time : Int) = time + offset c) →
      (∀ c, (g.client c).started = true ∧ (g.client c).Synchronized (g.clock c)) →
      ∀ (pre : List Action) (k : Call) (now : Int), k.sharedData ≠ "" →
      (∀ k', .call k' ∈ pre → k'.sharedData ≠ "" → k'.time < k.time ∧
        k' ∈ Machine.outputs (step accepts g) (heard g) (start id players) pre) →
      (Machine.run (step accepts g) (start id players) pre).links k.client = [] →
      (Machine.run (step accepts g) (start id players) pre).actor.Plays (g.name k.client) →
      (Machine.run (step accepts g) (start id players)
        (pre ++ [.call k, .arrive k.client now])).actor.sharedStats.privateData = k.sharedData := by
  intro h
  have hend := h (fun _ => true) 0 [Net.letters 0, Net.letters 1] (offsets fun c => if c = 0 then 1000 else 0)
    (fun c => ((if c = 0 then 1000 else 0 : Nat) : Int)) (fun c time => Nat.cast_add time _)
    (fun c => ⟨rfl, synchronized_synchronized _ (by dsimp only; split <;> decide) c⟩)
    (readyBoth ++ [.call ⟨0, 10, "", "x", false⟩, .arrive 0 0]) ⟨1, 20, "", "y", false⟩ 1 (by decide) ?_
    (by decide +kernel) (by decide +kernel)
  · exact absurd hend (by decide +kernel)
  · intro k' hk' _
    simp only [readyBoth, List.mem_append, List.mem_cons, Action.call.injEq, List.not_mem_nil, reduceCtorEq, or_false,
      false_or] at hk'
    subst hk'
    exact ⟨by decide, by decide +kernel⟩

end Broadcasts

end MultiSlider
