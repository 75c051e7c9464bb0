import MultiSlider.Session.Barrier
import MultiSlider.Session.Invariant

/-! The resend loop of `startup`. It sends `Ready` again and again until it gets `Start`, but a running session
    ignores `Ready` and sends no second `Start`: a client whose `Start` was lost never starts. -/

namespace MultiSlider

namespace Net

/-- One round of the loop without loss: the wait of the client at `c` ends without a datagram, the `Ready` it
    sends then reaches the server at `now`, and what the server answers reaches the clients at `arrival`. -/
def resendRound (accepts : Int → Bool) (σ : Net) (c : Address) (now : Int) (arrival : Nat) : Net :=
  let sent := σ.step accepts (.startupTimeout c)
  let served := sent.step accepts (.toServer σ.up.length now false false)
  Machine.run (step accepts) served
    (List.replicate (served.down.length - sent.down.length) (.toClient sent.down.length arrival false))

/-- The session runs without the client at `c`, and no `Start` for it is on its way. -/
structure Stranded (c : Address) (σ : Net) : Prop where
  running : σ.actor.state = .running
  started : (σ.clients c).started = false
  lost : ∀ d ∈ σ.down, d.receiver = c → d.payload ≠ .json .start

variable {accepts : Int → Bool} {σ : Net} {c : Address}

/-! ### A round of the loop -/

theorem startupTimeout_sent {s : Session} {e : Envelop} (h : e ∈ s.startupTimeout.sent) : e = s.readyMessage := by
  unfold Session.startupTimeout at h
  split at h
  · dsimp only at h
    split at h
    · exact absurd h List.not_mem_nil
    · exact List.mem_singleton.mp h
  · dsimp only at h
    split at h
    · exact absurd h List.not_mem_nil
    · exact List.mem_singleton.mp h
  · exact absurd h List.not_mem_nil

/-- A running session does nothing on `Ready`. -/
theorem receive_ready {a : SessionActor} (hrunning : a.state = .running) (now : Int) (senderAddress : Address)
    (playerName : String) : a.receive accepts now senderAddress (.json (.ready playerName)) = (a, []) := by
  unfold SessionActor.receive
  split
  · rfl
  · simp [SessionActor.handle, hrunning, BackendMessage.extract, SessionActor.handleRunning, SessionActor.done]

theorem serve_ready (hrunning : σ.actor.state = .running) {now : Int} {u : Uplink} {playerName : String}
    (hu : u.envelop.data = .json (.ready playerName)) :
    (σ.serve accepts now false u).down = σ.down ∧ (σ.serve accepts now false u).clients = σ.clients := by
  unfold serve
  rw [hu, receive_ready hrunning]
  simp

/-- A turn that does not start its client starts no other. -/
theorem not_started_turn {c' : Address} {t : Turn} (hstarted : (σ.clients c).started = false)
    (hturn : c' = c → t.session.started = true → (σ.clients c').started = true) (origin : Option Request) :
    ((σ.turn c' t origin).clients c).started = false := by
  change (Function.update σ.clients c' t.session c).started = false
  by_cases hc : c' = c
  · subst hc
    rw [Function.update_self]
    exact Bool.eq_false_iff.mpr fun h => absurd (hstarted.symm.trans (hturn rfl h)) (by decide)
  · rw [Function.update_of_ne (Ne.symm hc)]
    exact hstarted

theorem started_of_quiet {s : Session} {t : Turn} (hquiet : s.Quiet False t) (h : t.session.started = true) :
    s.started = true := (hquiet.started h).elim (fun h => h) False.elim

/-- No round of the loop starts a client that has not got `Start` before: the server answers nothing. -/
theorem resendRound_fails (accepts : Int → Bool) (hrunning : σ.actor.state = .running)
    (hstarted : (σ.clients c).started = false) (now : Int) (arrival : Nat) :
    ((resendRound accepts σ c now arrival).clients c).started = false := by
  have hsent : σ.step accepts (.startupTimeout c) = σ.turn c (σ.clients c).startupTimeout none := rfl
  have hquiet : ((σ.turn c (σ.clients c).startupTimeout none).clients c).started = false := by
    exact not_started_turn hstarted (fun _ => started_of_quiet Session.Quiet.startupTimeout) none
  unfold resendRound
  rw [hsent]
  generalize hσ' : σ.turn c (σ.clients c).startupTimeout none = σ' at hquiet ⊢
  have hserved : (σ'.step accepts (.toServer σ.up.length now false false)).down = σ'.down ∧
      (σ'.step accepts (.toServer σ.up.length now false false)).clients = σ'.clients := by
    simp only [step]
    split
    · rename_i u hu
      have hmem : u ∈ (σ.clients c).startupTimeout.sent.map fun e => (⟨c, e⟩ : Uplink) := by
        rw [← hσ', turn, List.getElem?_append_right (le_refl _)] at hu
        exact List.mem_of_getElem? hu
      obtain ⟨e, he, rfl⟩ := List.mem_map.mp hmem
      rw [startupTimeout_sent he]
      have hactor : σ'.actor = σ.actor := by rw [← hσ', turn]
      exact serve_ready (hactor ▸ hrunning) rfl
    · exact ⟨rfl, rfl⟩
  dsimp only
  rw [hserved.1, Nat.sub_self, List.replicate_zero, Machine.run_nil, hserved.2]
  exact hquiet

/-- Two players get ready; the `Start` for the first is lost. -/
def lostStart : List Action :=
  [.startup 0 30000, .startup 1 30000, .toServer 0 0 false false, .toServer 0 0 false false, .loseDown 1,
    .toClient 0 0 false]

theorem resendRound_fails_lostStart :
    ((resendRound anyDelay (Machine.run (step anyDelay) (start 0 ["a", "aa"] letters) lostStart) 0 5
      6).clients 0).started = false := by
  exact resendRound_fails anyDelay (by decide +kernel) (by decide +kernel) 5 6

/-- A round of the loop without loss does not make up for the lost `Start`. -/
theorem lost_start_unrecovered :
    ¬∀ (accepts : Int → Bool) (id : Nat) (players : List String) (name : Address ↪ String) (as : List Action)
      (c : Address),
      (Machine.run (step accepts) (start id players name) as).actor.state = .running →
      (Machine.run (step accepts) (start id players name) as).actor.LiveAt (name c) c →
      ((Machine.run (step accepts) (start id players name) as).clients c).awaits = true →
      ∀ now arrival,
        ((resendRound accepts (Machine.run (step accepts) (start id players name) as) c now
          arrival).clients c).started = true := by
  intro h
  have hstarted := h anyDelay 0 ["a", "aa"] letters lostStart 0 (by decide +kernel)
    ⟨⟨0, 0, "", 0, false⟩, by decide +kernel, rfl⟩
    (by decide +kernel) 5 6
  exact absurd hstarted (by decide +kernel)

/-! ### Any number of rounds -/

theorem start_of_outgoing {actor : SessionActor} {atOnce : Bool} {origin : Option Request} {effects : List Effect}
    {d : Downlink} (hd : d ∈ effects.flatMap (outgoing actor atOnce origin)) (hstart : d.payload = .json .start) :
    Effect.send (.json .start) d.receiver ∈ effects := by
  obtain ⟨e, he, hd⟩ := List.mem_flatMap.mp hd
  have ofPosted {effects' : List Effect} (hd : d ∈ posted origin effects') :
      Effect.send (.json .start) d.receiver ∈ effects' := by
    obtain ⟨payload, address, he, rfl⟩ := mem_posted hd
    rw [show payload = .json .start from hstart] at he
    exact he
  cases e with
  | schedule delay syncId msgIdx =>
    unfold outgoing at hd
    dsimp only at hd
    split at hd
    · obtain ⟨player, -, heq⟩ := List.mem_map.mp (ofPosted hd)
      cases heq
    · exact absurd hd List.not_mem_nil
  | send payload address =>
    rw [← List.mem_singleton.mp (ofPosted hd)] at he
    exact he
  | closeSession sessionId => exact absurd hd List.not_mem_nil

theorem Stranded.of_subset (h : Stranded c σ) {up : List Uplink} {down : List Downlink} {timers : List Timer}
    (hdown : down ⊆ σ.down) : Stranded c { σ with up, down, timers } :=
  ⟨h.running, h.started, fun d hd => h.lost d (hdown hd)⟩

/-- The actor does something, and no `Start` comes of it. -/
theorem Stranded.act (accepts : Int → Bool) (h : Stranded c σ) (e : Event) {timers : List Timer}
    {accepted : List Request} {down : List Downlink}
    (hdown : ∀ d ∈ down, d.payload = .json .start →
      Effect.send (.json .start) d.receiver ∈ (σ.actor.react accepts e).2) :
    Stranded c { σ with actor := (σ.actor.react accepts e).1, down := σ.down ++ down, timers, accepted } where
  running := SessionActor.step_running h.running e
  started := h.started
  lost d hd hc hstart := by
    rcases List.mem_append.mp hd with hd | hd
    · exact h.lost d hd hc hstart
    · exact absurd (h.running.symm.trans (SessionActor.start_sent (hdown d hd hstart)).1) (by decide)

theorem Stranded.turn (h : Stranded c σ) {c' : Address} {t : Turn}
    (hturn : c' = c → t.session.started = true → (σ.clients c').started = true) (origin : Option Request) :
    Stranded c (σ.turn c' t origin) :=
  ⟨h.running, not_started_turn h.started hturn origin, h.lost⟩

theorem Stranded.deliver (h : Stranded c σ) {d : Downlink} (hd : d.receiver = c → d.payload ≠ .json .start)
    (now : Nat) :
    Stranded c (σ.deliver now d) := by
  unfold Net.deliver
  dsimp only
  split
  · refine h.turn (fun _ => ?_) d.origin
    rcases (σ.clients d.receiver).receiveDatagram_cases now d.payload with ⟨-, hquiet⟩ | ⟨ackIdx, -, hack⟩
    · exact started_of_quiet hquiet
    · exact hack.started
  · refine h.turn (fun hc hstarted => ?_) d.origin
    exact (Session.Quiet.startupReceive.started hstarted).elim (fun h => h) fun hstart => absurd hstart (hd hc)

theorem Stranded.step (accepts : Int → Bool) (h : Stranded c σ) (a : Action) : Stranded c (σ.step accepts a) := by
  have remove {α : Type} (l : List α) (k : Nat) (keep : Bool) : (if keep then l else l.eraseIdx k) ⊆ l := by
    split
    · exact List.Subset.refl l
    · exact (List.eraseIdx_sublist l k).subset
  cases hcaller : caller a with
  | some c' =>
    rcases step_of_caller accepts hcaller with heq | ⟨t, heq, hquiet | ⟨now, syncId, delay, -, rfl⟩⟩
    · exact heq ▸ h
    · exact heq ▸ h.turn (fun _ => started_of_quiet hquiet) none
    · refine heq ▸ h.turn (fun _ => ?_) none
      rcases Session.sync_cases (σ.clients c') now syncId delay with hquiet | ⟨hstarted, -⟩
      · exact started_of_quiet hquiet
      · exact fun _ => hstarted
  | none =>
    cases a with
    | toServer k now keep atOnce =>
      simp only [Net.step]
      split
      · rename_i u hu
        exact (h.of_subset (List.Subset.refl _)).act accepts (.receive now u.sender u.envelop.data)
          fun d hd hstart => start_of_outgoing hd hstart
      · exact h
    | loseUp k => exact h.of_subset (List.Subset.refl _)
    | toClient k now keep =>
      simp only [Net.step]
      split
      · rename_i d hd
        split
        · exact (h.of_subset (remove _ _ _)).deliver (h.lost d (List.mem_of_getElem? hd)) now
        · exact h
      · exact h
    | loseDown k => exact h.of_subset (List.eraseIdx_sublist _ _).subset
    | fire k =>
      simp only [Net.step]
      split
      · rename_i t ht
        refine ⟨h.running, h.started, fun d hd hc hstart => ?_⟩
        rcases List.mem_append.mp hd with hd | hd
        · exact h.lost d hd hc hstart
        · obtain ⟨payload, address, he, rfl⟩ := mem_posted hd
          obtain ⟨player, -, heq⟩ := List.mem_map.mp he
          cases heq
          cases hstart
      · exact h
    | tick now =>
      refine h.act accepts (.keepAlive now) fun d hd hstart => ?_
      obtain ⟨payload, address, he, rfl⟩ := mem_posted hd
      rw [show payload = .json .start from hstart] at he
      exact he
    | _ => cases hcaller

/-- A client whose `Start` was lost never starts, whatever happens. -/
theorem Stranded.run (accepts : Int → Bool) (h : Stranded c σ) (as : List Action) :
    Stranded c (Machine.run (Net.step accepts) σ as) :=
  Machine.run_keeps (fun _ a h => h.step accepts a) h as

end Net

end MultiSlider
