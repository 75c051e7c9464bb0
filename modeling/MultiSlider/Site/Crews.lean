import MultiSlider.Session.Barrier
import MultiSlider.Session.Isolation

/-! What a session of the backend has been since it was created: a run of its own, from a new session of its players,
    by the events that it has handled. -/

namespace MultiSlider

namespace SessionActor

variable {accepts : Int → Bool} {players : List String}

/-- A session waits, or each of its players has got ready. -/
theorem waits_or_ready (id : Nat) (hnodup : players.Nodup) (events : List Event) :
    Waits players events (Machine.run (step accepts) (create id players) events) ∨
      ∀ name ∈ players, (lastReady events name).isSome := by
  induction events using List.reverseRecOn with
  | nil => exact Or.inl (waits_create id hnodup)
  | append_singleton events e ih =>
    rw [Machine.run_append]
    rcases ih with hwaits | hready
    · rcases hwaits.step accepts e with hwaits' | ⟨-, now, senderAddress, playerName, rfl, hmember, hfull, -⟩
      · exact Or.inl hwaits'
      · refine Or.inr fun name hname => ?_
        have hentry := hwaits.join now senderAddress hmember hname
        obtain ⟨entry, hlookup, haddress⟩ := Option.map_eq_some_iff.mp hentry
        cases entry with
        | none => exact absurd rfl (List.any_eq_false.mp hfull none (AList.mem_values.mpr ⟨name, hlookup⟩))
        | some player =>
          rw [← haddress]
          rfl
    · refine Or.inr fun name hname => ?_
      rw [lastReady_append]
      cases e.readyAddress name with
      | none => exact hready name hname
      | some address => rfl

end SessionActor

namespace Sessions

/-- Each session is what its events have made of a new one. -/
def Lived (accepts : Int → Bool) (σ : Sessions) : Prop :=
  ∀ i < σ.created, ∃ id, (σ.instances i).actor =
    Machine.run (SessionActor.step accepts) (.create id (σ.instances i).players) ((σ.instances i).handled.map (·.2))

variable {accepts : Int → Bool} {σ : Sessions} {i : SessionRef}

/-- What of a session does not depend on its mailbox. -/
theorem receive_same (d : Datagram) (i : SessionRef) :
    ((σ.receive d).instances i).players = (σ.instances i).players ∧
      ((σ.receive d).instances i).handled = (σ.instances i).handled ∧
      ((σ.receive d).instances i).actor = (σ.instances i).actor := by
  unfold Sessions.receive
  split
  · rename_i handler _
    by_cases hi : i = handler
    · subst hi
      simp only [Function.update_self, and_self]
    · simp only [Function.update_of_ne hi, and_self]
  · exact ⟨rfl, rfl, rfl⟩

theorem react_players (accepts : Int → Bool) (i : SessionRef) (mailbox : List SignedEnvelop) (e : Event)
    (j : SessionRef) : ((σ.react accepts i mailbox e).instances j).players = (σ.instances j).players := by
  by_cases hj : j = i
  · subst hj
    simp only [react, Function.update_self]
    rfl
  · rw [react_other hj]

theorem react_handled (accepts : Int → Bool) (i : SessionRef) (mailbox : List SignedEnvelop) (e : Event) :
    ((σ.react accepts i mailbox e).instances i).handled =
      (σ.instances i).handled ++ [((σ.instances i).actor.state, e)] := by
  simp only [react, Function.update_self]
  rfl

/-- The players of a session never change. -/
theorem players_step (h : σ.Placed) (accepts : Int → Bool) (a : Action) (hi : i < σ.created) :
    ((σ.step accepts a).instances i).players = (σ.instances i).players := by
  have hstep := happens h accepts a
  generalize σ.step accepts a = σ' at hstep ⊢
  cases hstep with
  | created => simp only [Function.update_of_ne (Nat.ne_of_lt hi)]
  | delivered => exact (receive_same _ i).1
  | handled => exact react_players ..
  | ticked => exact react_players ..
  | _ => rfl

theorem Lived.react (h : Lived accepts σ) (i : SessionRef) (mailbox : List SignedEnvelop) (e : Event) :
    Lived accepts (σ.react accepts i mailbox e) := by
  intro j hj
  obtain ⟨id, hactor⟩ := h j hj
  refine ⟨id, ?_⟩
  rw [react_players]
  by_cases hji : j = i
  · subst hji
    rw [react_self, react_handled, List.map_append, Machine.run_append, ← hactor]
    rfl
  · rw [react_other hji]
    exact hactor

theorem Lived.step (h : Lived accepts σ) (hplaced : σ.Placed) (a : Action) : Lived accepts (σ.step accepts a) := by
  have hstep := happens hplaced accepts a
  generalize σ.step accepts a = σ' at hstep ⊢
  cases hstep with
  | @created sessionName players id free =>
    intro i hi
    by_cases hnew : i = σ.created
    · subst hnew
      refine ⟨id, ?_⟩
      simp only [Function.update_self]
      rfl
    · obtain ⟨id', hactor⟩ := h i (Nat.lt_of_le_of_ne (Nat.le_of_lt_succ hi) hnew)
      refine ⟨id', ?_⟩
      simp only [Function.update_of_ne hnew]
      exact hactor
  | delivered =>
    intro i hi
    rw [receive_created] at hi
    obtain ⟨hplayers, hhandled, hactor⟩ := receive_same _ i
    rw [hplayers, hhandled, hactor]
    exact h i hi
  | handled => exact h.react _ _ _
  | ticked => exact h.react _ _ _
  | _ => exact h

/-- The names of a session are those of its players, if they are distinct. -/
theorem Lived.keys (h : Lived accepts σ) (hi : i < σ.created) (hnodup : (σ.instances i).players.Nodup) :
    (σ.instances i).actor.stats.keys = (σ.instances i).players := by
  obtain ⟨id, hactor⟩ := h i hi
  rw [hactor]
  refine Machine.run_keeps (P := fun a : SessionActor => a.stats.keys = (σ.instances i).players)
    (fun a e ha => (SessionActor.step_keys accepts a e).trans ha) ?_ _
  exact (SessionActor.waits_create id hnodup).keys

/-- A session that has begun to run has handled a `Ready` of each of its players, and before that it does not stop. -/
theorem Lived.ready (h : Lived accepts σ) (hi : i < σ.created) (hnodup : (σ.instances i).players.Nodup)
    (hstarted : (σ.instances i).actor.state ≠ .waiting ∨ (σ.instances i).actor.stopped = true) {name : String}
    (hname : name ∈ (σ.instances i).players) :
    ∃ p ∈ (σ.instances i).handled, (p.2.readyAddress name).isSome := by
  obtain ⟨id, hactor⟩ := h i hi
  have hready : (lastReady ((σ.instances i).handled.map (·.2)) name).isSome := by
    rcases SessionActor.waits_or_ready id hnodup ((σ.instances i).handled.map (·.2)) with
      hwaits | hready
    · rw [← hactor] at hwaits
      rcases hstarted with hstate | hstopped
      · exact absurd hwaits.state hstate
      · cases hwaits.stopped.symm.trans hstopped
    · exact hready name hname
  obtain ⟨address, hlast⟩ := Option.isSome_iff_exists.mp hready
  obtain ⟨e, he, haddress⟩ := List.mem_filterMap.mp (List.mem_of_getLast? hlast)
  obtain ⟨p, hp, rfl⟩ := List.mem_map.mp he
  exact ⟨p, hp, by rw [haddress]; rfl⟩

/-- A session that still has its id gets the datagrams that carry it. -/
theorem Placed.forward (h : σ.Placed) (hi : i < σ.created) (hlive : (σ.instances i).actor.stopped = false) :
    σ.backend.envelop (σ.instances i).actor.id = .forward i := by
  obtain ⟨info, hinfo, hhandler⟩ := h.own i hi hlive
  exact (envelop_natCast h).mpr ⟨info, hinfo, hhandler⟩

end Sessions

end MultiSlider
