import MultiSlider.Session.Removal

/-! How often the server accepts one reliable call. An entry whose answers were lost is resent for as long
    as it stays in the queue, and its number is ahead of the filter again once the calls accepted since
    have gone almost once round the 1024 numbers. -/

namespace MultiSlider
namespace Net

/-- `scheduleSync` has run at most once for each call. -/
def Once (σ : Net) : Prop := σ.accepted.Nodup

/-- The condition on a step: where the server handles a copy of a request that it has accepted before, the
    copy does not lie 1 to 31 positions, modulo 1024, ahead of the player's request accepted last. -/
def NotAgain (σ : Net) : Action → Prop
  | .toServer k _ _ _ =>
    ∀ u ∈ σ.up[k]?, ∀ r ∈ u.envelop.request, σ.actor.stopped = false → r ∈ σ.accepted →
      ¬AheadIdx (lastCall σ.accepted r.player) r.call
  | _ => True

variable {name : Address ↪ String} {Q : Request → Prop} {σ : Net} {accepts : Int → Bool}

/-- The requests that an action has the server accept. -/
def newlyAccepted (σ : Net) : Action → List Request
  | .toServer k _ _ _ =>
    match σ.up[k]? with
    | some u => if σ.actor.takes u.envelop.data then u.envelop.request.toList else []
    | none => []
  | _ => []

theorem accepted_step (a : Action) : (σ.step accepts a).accepted = σ.accepted ++ newlyAccepted σ a := by
  cases a with
  | startup c timeout =>
    simp only [step, newlyAccepted, List.append_nil]
    split <;> rfl
  | toServer k now keep atOnce =>
    simp only [step, newlyAccepted]
    cases σ.up[k]? with
    | none => exact (List.append_nil _).symm
    | some u =>
      simp only [serve]
      split
      · rfl
      · exact (List.append_nil _).symm
  | toClient k now keep =>
    simp only [step, newlyAccepted, List.append_nil]
    split
    · split
      · unfold deliver
        dsimp only
        split <;> rfl
      · rfl
    · rfl
  | fire k =>
    simp only [step, newlyAccepted, List.append_nil]
    split <;> rfl
  | _ => exact (List.append_nil _).symm

theorem once_step_iff (h : Inv name Q σ) (honce : Once σ) {a : Action} :
    Once (σ.step accepts a) ↔ NotAgain σ a := by
  unfold Once at honce ⊢
  rw [accepted_step]
  cases a with
  | toServer k now keep atOnce =>
    simp only [newlyAccepted, NotAgain]
    cases hk : σ.up[k]? with
    | none => simpa using honce
    | some u =>
      simp only [Option.mem_def, Option.some.injEq, forall_eq']
      rcases h.up u (List.mem_of_getElem? hk) with hplain | ⟨r, hreq⟩
      · simpa [hplain.1] using honce
      · rw [hreq.request]
        simp only [Option.toList_some, Option.some.injEq, forall_eq']
        by_cases htakes : σ.actor.takes u.envelop.data = true
        · obtain ⟨hstopped, -, -, hahead⟩ := (hreq.takes_iff h.actor).mp htakes
          rw [if_pos htakes, List.nodup_append_comm, List.singleton_append, List.nodup_cons]
          constructor
          · rintro ⟨hnew, -⟩ - hold
            exact absurd hold hnew
          · exact fun hno => ⟨fun hold => hno hstopped hold hahead, honce⟩
        · rw [if_neg htakes, List.append_nil]
          refine iff_of_true honce fun hstopped hold hahead => htakes ((hreq.takes_iff h.actor).mpr ?_)
          -- An accepted request shows that the session runs and knows its player.
          have hrunning : σ.actor.state = .running := by
            by_contra hidle
            rw [h.actor.idle hidle] at hold
            cases hold
          exact ⟨hstopped, hrunning, (h.actor.accepted r hold).2, hahead⟩
  | _ => simpa [newlyAccepted, NotAgain] using honce

/-- In every run, over any network, each call is accepted at most once if and only if no copy of an
    accepted request reaches the server when it is 1 to 31 positions ahead of the one accepted last. -/
theorem accepted_once_iff (accepts : Int → Bool) (id : Nat) (players : List String) (name : Address ↪ String)
    (as : List Action) :
    Machine.Always (step accepts) Once (start id players name) as ↔
      Machine.Along (step accepts) NotAgain (start id players name) as :=
  Machine.always_iff_along (I := Inv name fun _ => True)
    (fun σ a h => h.step (callHas_trivial σ a)) (fun _ _ h honce => once_step_iff h honce)
    (Inv.start id players) List.nodup_nil

/-! ### A call that is accepted twice -/

/-- The first call of the player `letters 0`, whose `Ack` is lost. -/
def stuckRequest : Request := ⟨"a", 1, 7⟩

/-- Its entry in the output queue. -/
def stuck : MsgInfo := ⟨1, 0, ⟨0, .json (.requestSync "a" 60000 7 1), some stuckRequest⟩⟩

/-- The client after `n` calls, all but the first of them acknowledged. -/
def steadyClient (n : Nat) (bits : BitVec 32) : Session :=
  { Session.create "a" 0 with
    started := true
    clockSyncId := 1
    localSeqIdx := n + 1
    remoteSeqIdx := n
    previousIdxBits := bits
    outputQueue := [stuck]
    startupPhase := .finished
    calls := n }

/-- The session of one player at that point, with all delivered and the timers still to fire. -/
structure Steady (n : Nat) (σ : Net) : Prop where
  inv : Inv letters (fun _ => True) σ
  client : ∃ bits, σ.clients 0 = steadyClient n bits
  up : σ.up = []
  down : σ.down = []
  running : σ.actor.state = .running
  stopped : σ.actor.stopped = false
  first : stuckRequest ∈ σ.accepted
  last : lastCall σ.accepted "a" = n

/-- A call whose request and `Ack` get through. -/
def callAndAck : List Action := [.sync 0 0 7 60000, .toServer 0 0 false false, .toClient 0 0 false]

/-- The player starts, makes a call whose `Ack` is lost, and a second one. -/
def opening : List Action :=
  [.startup 0 10000, .toServer 0 0 false false, .toClient 0 0 false, .loseUp 0,
    .sync 0 0 7 60000, .toServer 0 0 false false, .loseDown 0] ++ callAndAck

theorem steady_opening : Steady 2 (Machine.run (step anyDelay) (start 0 ["a"] letters) opening) where
  inv := Inv.run anyDelay 0 ["a"] opening (Machine.along_of_forall fun a _ σ => callHas_trivial σ a)
  client := ⟨0, by decide +kernel⟩
  up := by decide
  down := by decide
  running := by decide
  stopped := by decide
  first := by decide
  last := by decide

/-- The datagram of the next call. -/
def nextEnvelop (n : Nat) : Envelop :=
  ⟨0, .json (.requestSync "a" 60000 7 (n + 1 : Nat)), some ⟨"a", n + 1, 7⟩⟩

/-- The client with one more call in its queue. -/
def callingClient (n : Nat) (bits : BitVec 32) : Session :=
  { steadyClient n bits with
    localSeqIdx := n + 2
    outputQueue := [stuck, ⟨n + 1, 0, nextEnvelop n⟩]
    calls := n + 1 }

theorem sync_steadyClient {n : Nat} {bits : BitVec 32} (hhigh : n < 1000) :
    (steadyClient n bits).sync 0 7 60000 = (⟨callingClient n bits, [nextEnvelop n], [], none⟩, true) := by
  have hnext : n + 1 < 1023 := by omega
  simp [Session.sync, steadyClient, callingClient, nextEnvelop, Session.getNextSeqIdx, Session.makeEnvelop,
    Session.create, Session.getTimeSyncronizedMS, Session.returns, messsagesBufferSize, idxWrapModulo, hnext]

theorem receive_callingClient {n : Nat} {bits : BitVec 32} (hlow : 2 ≤ n) (hhigh : n < 1000) :
    (callingClient n bits).receiveDatagram 0 (.json (.ack (n + 1 : Nat))) =
      (steadyClient (n + 1) (bits <<< 1)).returns [] [] := by
  have hcast : narrowCast 32 ((n + 1 : Nat) : Int) = some (n + 1) :=
    narrowCast_natCast (lt_trans (show n + 1 < 1024 by omega) (by decide))
  have hcheck : (callingClient n bits).checkAcknowledgement (n + 1) = some (steadyClient (n + 1) (bits <<< 1)) := by
    have hremote : (callingClient n bits).remoteSeqIdx = n := rfl
    have hqueue : ((callingClient n bits).outputQueue.eraseP fun msg => msg.seqIdx = n + 1) = [stuck] := by
      have hother : ¬stuck.seqIdx = n + 1 := by
        show ¬1 = n + 1
        omega
      simp [callingClient, hother]
    unfold Session.checkAcknowledgement messsagesBufferSize
    rw [if_neg (by omega), if_pos (by omega), Session.removeAcknowledged, hqueue]
    simp [callingClient, steadyClient]
  have hdone : ((callingClient n bits).checkAcknowledgement (n + 1)).getD (callingClient n bits) =
      steadyClient (n + 1) (bits <<< 1) := by rw [hcheck, Option.getD_some]
  have htime : (steadyClient (n + 1) (bits <<< 1)).getTimeSyncronizedMS 0 = 0 := by
    simp [Session.getTimeSyncronizedMS, steadyClient, Session.create]
  rw [Session.receiveDatagram_ack hcast hdone, htime]
  rfl

/-- The server accepts the next call and sends its `Ack`. -/
theorem serve_nextEnvelop {n : Nat} (h : Inv letters Q σ) (hhigh : n < 1000) (hQ : Q ⟨"a", n + 1, 7⟩)
    (hrunning : σ.actor.state = .running) (hstopped : σ.actor.stopped = false)
    (hknown : (σ.actor.seqStats "a").isSome) (hlast : lastCall σ.accepted "a" = n) :
    let σ' := σ.serve anyDelay 0 false ⟨0, nextEnvelop n⟩
    σ'.accepted = σ.accepted ++ [⟨"a", n + 1, 7⟩] ∧
      σ'.down = σ.down ++ [⟨0, .json (.ack (n + 1 : Nat)), some ⟨"a", n + 1, 7⟩⟩] ∧
      σ'.actor.state = .running ∧ σ'.actor.stopped = false := by
  have hreq : IsRequest letters Q 0 (n + 1) (nextEnvelop n) ⟨"a", n + 1, 7⟩ :=
    ⟨rfl, show "a" = letters 0 by decide, by simp, le_refl _, hQ, 60000, by
      have hmod : (n + 1) % 1024 = n + 1 := by omega
      simp only [nextEnvelop, hmod]
      congr⟩
  have htakes : σ.actor.takes (nextEnvelop n).data = true := by
    refine (hreq.takes_iff h.actor).mpr ⟨hstopped, hrunning, hknown, ?_⟩
    rw [hlast]
    simp only [AheadIdx, Cyclic.Ahead]
    omega
  let result := σ.actor.receive anyDelay 0 0 (nextEnvelop n).data
  obtain ⟨info, htaken⟩ : ∃ info, σ.actor.Taken anyDelay 0 "a" 60000 7 (n + 1 : Nat) info result.1 result.2 :=
    SessionActor.receive_taken anyDelay 0 0 htakes
  have hidx : toInt (n + 1 : Nat) = (n + 1 : Nat) := toInt_idx (by omega)
  have heffects := htaken.effects
  rw [if_pos rfl, hidx] at heffects
  refine ⟨?_, ?_, htaken.state, htaken.stopped.trans hstopped⟩
  · simp only [serve, htakes, if_true]
    rfl
  · show σ.down ++ (σ.actor.receive anyDelay 0 0 (nextEnvelop n).data).2.flatMap _ = _
    rw [heffects]
    rfl

theorem Steady.callAndAck {n : Nat} (h : Steady n σ) (hlow : 2 ≤ n) (hhigh : n < 1000) :
    Steady (n + 1) (Machine.run (step anyDelay) σ Net.callAndAck) := by
  obtain ⟨bits, hclient⟩ := h.client
  -- The call.
  let σ₁ := σ.step anyDelay (.sync 0 0 7 60000)
  have h₁ : Inv letters (fun _ => True) σ₁ := h.inv.step trivial
  have hturn : σ₁ = σ.turn 0 ⟨callingClient n bits, [nextEnvelop n], [], none⟩ none := by
    simp only [σ₁, step, hclient, sync_steadyClient hhigh]
  -- The request reaches the server, which accepts it and answers.
  let σ₂ := σ₁.step anyDelay (.toServer 0 0 false false)
  have h₂ : Inv letters (fun _ => True) σ₂ := h₁.step trivial
  have hserve : σ₂ = { σ₁ with up := [] }.serve anyDelay 0 false ⟨0, nextEnvelop n⟩ := by
    simp [σ₂, step, hturn, turn, h.up]
  have hσ₁ : Inv letters (fun _ => True) { σ₁ with up := [] } :=
    h₁.of_subset (List.nil_subset _) (List.Subset.refl _) (List.Subset.refl _)
  obtain ⟨haccepted, hdown, hrunning, hstopped⟩ := serve_nextEnvelop hσ₁ hhigh trivial h.running h.stopped
    (h.inv.actor.accepted _ h.first).2 h.last
  rw [← hserve] at haccepted hdown hrunning hstopped
  -- The answer reaches the client, which takes the entry off its queue.
  have hstep : Machine.run (step anyDelay) σ Net.callAndAck = { σ₂ with down := [] }.turn 0
      ((steadyClient (n + 1) (bits <<< 1)).returns [] []) (some ⟨"a", n + 1, 7⟩) := by
    show σ₂.step anyDelay (.toClient 0 0 false) = _
    have hs₂ : σ₂.clients 0 = callingClient n bits := by simp [hserve, serve, hturn, turn]
    have hstarted : (callingClient n bits).started = true := rfl
    have hd : σ₂.down = [⟨0, .json (.ack (n + 1 : Nat)), some ⟨"a", n + 1, 7⟩⟩] :=
      hdown.trans (congrArg (· ++ _) h.down)
    rw [← receive_callingClient hlow hhigh]
    simp [step, hd, reads, deliver, hs₂, hstarted]
  have hup : σ₂.up = [] := by rw [hserve]; rfl
  exact {
    inv := by
      show Inv letters _ (σ₂.step anyDelay (.toClient 0 0 false))
      exact h₂.step trivial
    client := ⟨bits <<< 1, by rw [hstep]; simp [turn, Session.returns]⟩
    up := by rw [hstep]; simp [turn, Session.returns, hup]
    down := by rw [hstep]; rfl
    running := by rw [hstep]; exact hrunning
    stopped := by rw [hstep]; exact hstopped
    first := by
      rw [hstep]
      show _ ∈ σ₂.accepted
      rw [haccepted]
      exact List.mem_append_left _ h.first
    last := by
      rw [hstep]
      show lastCall σ₂.accepted "a" = n + 1
      rw [haccepted, lastCall_append, if_pos rfl] }

/-- So many calls, each acknowledged. -/
def calls (k : Nat) : List Action := (List.replicate k callAndAck).flatten

theorem steady_calls {k : Nat} (h : k ≤ 992) :
    Steady (2 + k) (Machine.run (step anyDelay) (start 0 ["a"] letters) (opening ++ calls k)) := by
  induction k with
  | zero => simpa [calls] using steady_opening
  | succ k ih =>
    have hcalls : calls (k + 1) = calls k ++ callAndAck := by
      rw [calls, List.replicate_succ', List.flatten_append, List.flatten_singleton]
      rfl
    rw [hcalls, ← List.append_assoc, Machine.run_append]
    exact (ih (by omega)).callAndAck (by omega) (by omega)

/-- After 994 calls the resent first one is accepted again. -/
theorem Steady.again {σ : Net} (h : Steady 994 σ) :
    ¬Once (Machine.run (step anyDelay) σ [.poll 0 1001, .toServer 0 0 false false]) := by
  obtain ⟨bits, hclient⟩ := h.client
  have hpoll : ((σ.clients 0).periodic 1001).sent = [stuck.msgData] := by
    have htime : (steadyClient 994 bits).getTimeSyncronizedMS 1001 = 1001 := by
      simp [Session.getTimeSyncronizedMS, steadyClient, Session.create]
    rw [hclient, Session.periodic, htime]
    simp [steadyClient, Session.create, stuck, Session.resend, clientKeepAliveLimit, clockSyncTimeoutMs,
      resendInterval, Session.returns]
  let σ₁ := σ.step anyDelay (.poll 0 1001)
  have h₁ : Inv letters (fun _ => True) σ₁ := h.inv.step trivial
  have hup : σ₁.up = [⟨0, stuck.msgData⟩] := by simp [σ₁, step, turn, h.up, hpoll]
  have hfirst : stuckRequest ∈ σ₁.accepted := h.first
  intro honce
  rw [show Machine.run (step anyDelay) σ [.poll 0 1001, .toServer 0 0 false false] =
    σ₁.step anyDelay (.toServer 0 0 false false) from rfl] at honce
  have honce₁ : Once σ₁ := by
    unfold Once at honce
    rw [accepted_step] at honce
    exact honce.of_append_left
  refine (once_step_iff h₁ honce₁).mp honce ⟨0, stuck.msgData⟩ (by simp [hup]) stuckRequest rfl h.stopped hfirst ?_
  rw [show lastCall σ₁.accepted stuckRequest.player = 994 from h.last]
  decide

/-- Over a network that only drops datagrams a call can be accepted twice. -/
theorem call_accepted_twice :
    ¬∀ (accepts : Int → Bool) (id : Nat) (players : List String) (name : Address ↪ String) (as : List Action),
      Machine.Along (step accepts) (fun σ a => InOrder σ a ∧ NoDup a) (start id players name) as →
        Machine.Always (step accepts) Once (start id players name) as := by
  intro h
  let as := (opening ++ calls 992) ++ [.poll 0 1001, .toServer 0 0 false false]
  -- Every action takes the oldest datagram of its link, and takes it away.
  have hhead : ∀ a ∈ opening ++ callAndAck ++ [.poll 0 1001, .toServer 0 0 false false],
      ∀ σ, InOrder σ a ∧ NoDup a := by
    simp [opening, callAndAck, InOrder, NoDup]
  have hordered : ∀ a ∈ as, ∀ σ, InOrder σ a ∧ NoDup a := by
    intro a ha
    refine hhead a ?_
    simp only [as, calls, List.mem_append, List.mem_flatten, List.mem_replicate] at ha ⊢
    rcases ha with (ha | ⟨l, ⟨-, rfl⟩, ha⟩) | ha
    · exact Or.inl (Or.inl ha)
    · exact Or.inl (Or.inr ha)
    · exact Or.inr ha
  have halways := h anyDelay 0 ["a"] letters as (Machine.along_of_forall hordered)
  have hend := Machine.always_iff_prefix.mp halways as (List.prefix_refl as)
  rw [Machine.run_append] at hend
  exact (steady_calls (le_refl 992)).again hend

end Net

end MultiSlider
