import MultiSlider.Session.Invariant

/-! Removal from the output queue. An entry leaves the queue when an `Ack` or a `Sync` that passes the
    client's filter carries its number. The numbers of a `Sync` count the accepted requests of one player,
    and the filter does not tell whose, so the number may be that of an entry the server has not accepted. -/

namespace MultiSlider
namespace Net

/-- Only calls whose request the server has accepted have left an output queue. -/
def Sound (σ : Net) : Prop := ∀ r ∈ σ.removed, r ∈ σ.accepted

/-- The condition on a step: where a datagram carries a number that lies ahead of the client's filter, the
    first entry of the queue with this number is the request that led to the datagram, or the server has
    accepted it on another copy. -/
def OwnAnswer (σ : Net) : Action → Prop
  | .toClient k _ _ =>
    ∀ d ∈ σ.down[k]?, (σ.clients d.receiver).started = true →
      ∀ seqIdx ∈ d.payload.seqIdx, AheadIdx (σ.clients d.receiver).remoteSeqIdx seqIdx →
        ∀ msg ∈ (σ.clients d.receiver).outputQueue.find? (fun msg => msg.seqIdx = seqIdx),
          msg.msgData.request = d.origin ∨ ∃ r ∈ σ.accepted, msg.msgData.request = some r
  | _ => True

variable {name : Address ↪ String} {Q : Request → Prop} {σ : Net}

/-! ### What a turn removes -/

/-- A turn that keeps the calls in the queue removes nothing. -/
theorem removed_turn_of_subset {c : Address} {t : Turn} {origin : Option Request}
    (h : (σ.clients c).requests ⊆ t.session.requests) : (σ.turn c t origin).removed = σ.removed := by
  have hnil : (σ.clients c).requests.filter (· ∉ t.session.requests) = [] := by
    rw [List.filter_eq_nil_iff]
    intro r hr
    simpa using h hr
  simp only [turn, hnil, List.append_nil]

theorem removed_turn_quiet {c : Address} {t : Turn} {start : Prop} {origin : Option Request}
    (hquiet : (σ.clients c).Quiet start t) : (σ.turn c t origin).removed = σ.removed := by
  refine removed_turn_of_subset ?_
  rw [Session.requests_eq, Session.requests_eq, hquiet.pending]
  exact List.Subset.refl _

theorem removed_turn_sync {c : Address} {now syncId delay : Nat} {origin : Option Request} :
    (σ.turn c ((σ.clients c).sync now syncId delay).1 origin).removed = σ.removed := by
  rcases Session.sync_cases (σ.clients c) now syncId delay with hquiet | ⟨-, -, -, -, -, sentTime, hsession⟩
  · exact removed_turn_quiet hquiet
  · refine removed_turn_of_subset ?_
    rw [hsession, Session.requests, Session.requests, List.filterMap_append]
    exact List.subset_append_left _ _

/-- An acknowledgement removes the first entry with its number. -/
theorem mem_removed_acknowledged {actor : SessionActor} {c : Address} {s : Session} {t : Turn} {ackIdx : Nat}
    (hc : ClientOk name Q actor c s) (hack : s.Acknowledged ackIdx t) {r : Request} :
    r ∈ s.requests.filter (· ∉ t.session.requests) ↔
      ∃ msg, s.outputQueue.find? (fun msg => msg.seqIdx = ackIdx) = some msg ∧ msg.msgData.request = some r := by
  cases hfind : s.outputQueue.find? (fun msg => msg.seqIdx = ackIdx) with
  | none =>
    have hkeep : t.session.requests = s.requests := by
      unfold Session.requests
      rw [hack.outputQueue, List.eraseP_of_forall_not]
      exact fun msg hmsg => List.find?_eq_none.mp hfind msg hmsg
    simp [hkeep]
  | some msg =>
    obtain ⟨hidx, before, after, hqueue, hbefore⟩ := List.find?_eq_some_iff_append.mp hfind
    have herase : t.session.requests = before.filterMap (·.msgData.request) ++ after.filterMap (·.msgData.request) := by
      unfold Session.requests
      rw [hack.outputQueue, hqueue, List.eraseP_append_right _ (fun b hb => by simpa using hbefore b hb),
        List.eraseP_cons_of_pos (p := fun msg : MsgInfo => decide (msg.seqIdx = ackIdx)) hidx, List.filterMap_append]
    have hmem : (msg.seqIdx, msg.msgData) ∈ s.pending :=
      List.mem_map.mpr ⟨msg, List.mem_of_find?_eq_some hfind, rfl⟩
    obtain ⟨r', hr', -⟩ := hc.queue _ hmem
    have hrequest : msg.msgData.request = some r' := hr'.request
    have hrequests : s.requests =
        before.filterMap (·.msgData.request) ++ r' :: after.filterMap (·.msgData.request) := by
      unfold Session.requests
      rw [hqueue, List.filterMap_append, List.filterMap_cons, hrequest]
    -- The calls in the queue are distinct, so the call of the entry is gone with it.
    have hnodup : s.requests.Nodup := hc.sorted.imp fun hlt heq => by
      rw [heq] at hlt
      exact Nat.lt_irrefl _ hlt
    rw [hrequests, List.nodup_middle, List.nodup_cons] at hnodup
    have hentry : (∃ msg', some msg = some msg' ∧ msg'.msgData.request = some r) ↔ r' = r := by
      simp [hrequest]
    rw [hentry, List.mem_filter, decide_eq_true_eq, herase, hrequests]
    constructor
    · rintro ⟨hin, hout⟩
      rcases List.mem_append.mp hin with h | h
      · exact absurd (List.mem_append_left _ h) hout
      · rcases List.mem_cons.mp h with h | h
        · exact h.symm
        · exact absurd (List.mem_append_right _ h) hout
    · rintro rfl
      exact ⟨by simp, hnodup.1⟩

/-! ### Whole runs -/

theorem sound_deliver_iff (h : Inv name Q σ) (hsound : Sound σ) {d : Downlink}
    (hd : DownOk name σ.actor σ.accepted d) (hstarted : (σ.clients d.receiver).started = true) (now : Nat) :
    Sound (σ.deliver now d) ↔ ∀ seqIdx ∈ d.payload.seqIdx, AheadIdx (σ.clients d.receiver).remoteSeqIdx seqIdx →
      ∀ msg ∈ (σ.clients d.receiver).outputQueue.find? (fun msg => msg.seqIdx = seqIdx),
        msg.msgData.request = d.origin ∨ ∃ r ∈ σ.accepted, msg.msgData.request = some r := by
  have hc := h.clients d.receiver
  have hidx : ∀ seqIdx, d.payload.seqIdx = some seqIdx → IsIdx seqIdx := fun _ hseq => (seqIdx_of_downOk hd hseq).1
  have hpass (ackIdx : Nat) : (σ.clients d.receiver).passes d.payload = some ackIdx ↔ _ :=
    Session.passes_eq_some_iff hc.remoteSeqIdx hidx
  simp only [deliver, hstarted, if_true]
  -- The filter drops the number, or the entry with this number is removed.
  rcases Session.receiveDatagram_cases (σ.clients d.receiver) now d.payload with ⟨hnone, hquiet⟩ | ⟨ackIdx, hsome, hack⟩
  · have hkeep : Sound (σ.turn d.receiver ((σ.clients d.receiver).receiveDatagram now d.payload) d.origin) := by
      unfold Sound
      rw [removed_turn_quiet hquiet]
      exact hsound
    refine iff_of_true hkeep fun seqIdx hseq hahead => ?_
    obtain ⟨ackIdx, rfl⟩ := Int.eq_ofNat_of_zero_le (hidx seqIdx hseq).1
    cases hnone.symm.trans ((hpass ackIdx).mpr ⟨hseq, hahead⟩)
  · obtain ⟨hseq, hahead⟩ := (hpass ackIdx).mp hsome
    -- The datagram goes back to a request that has been accepted.
    obtain ⟨-, r₀, hr₀, horigin⟩ := seqIdx_of_downOk hd hseq
    have hremoved (r : Request) := mem_removed_acknowledged hc hack (r := r)
    constructor
    · rintro hsound' seqIdx hseq' - msg hmsg
      cases hseq.symm.trans hseq'
      simp only [Int.natCast_inj] at hmsg
      have hmem : (msg.seqIdx, msg.msgData) ∈ (σ.clients d.receiver).pending :=
        List.mem_map.mpr ⟨msg, List.mem_of_find?_eq_some hmsg, rfl⟩
      obtain ⟨r, hr, -⟩ := hc.queue _ hmem
      exact Or.inr ⟨r, hsound' r (List.mem_append_right _ ((hremoved r).mpr ⟨msg, hmsg, hr.request⟩)), hr.request⟩
    · intro hown r hr
      rcases List.mem_append.mp hr with hr | hr
      · exact hsound r hr
      · obtain ⟨msg, hmsg, hrequest⟩ := (hremoved r).mp hr
        rcases hown ackIdx hseq hahead msg (by simpa only [Int.natCast_inj, Option.mem_def] using hmsg) with
          heq | ⟨r', hr', heq⟩
        · cases hrequest.symm.trans (heq.trans horigin)
          exact hr₀
        · cases hrequest.symm.trans heq
          exact hr'

theorem sound_step_iff (h : Inv name Q σ) (hsound : Sound σ) {accepts : Int → Bool} {a : Action} :
    Sound (σ.step accepts a) ↔ OwnAnswer σ a := by
  cases hcaller : caller a with
  | some c =>
    -- A call of a client removes nothing from a queue.
    have hown : OwnAnswer σ a := by cases a <;> trivial
    refine iff_of_true ?_ hown
    unfold Sound
    rcases step_of_caller accepts hcaller with heq | ⟨t, heq, hquiet | ⟨now, syncId, delay, rfl, rfl⟩⟩
    · rw [heq]
      exact hsound
    · rw [heq, removed_turn_quiet hquiet]
      exact hsound
    · rw [heq, removed_turn_sync]
      exact hsound
  | none =>
    cases a with
    | toServer k now keep atOnce =>
      refine iff_of_true ?_ trivial
      simp only [step]
      -- The server only adds to what has been accepted.
      split
      · intro r hr
        have := hsound r hr
        simp only [serve]
        split
        · exact List.mem_append_left _ this
        · exact this
      · exact hsound
    | loseUp k => exact iff_of_true hsound trivial
    | toClient k now keep =>
      simp only [step, OwnAnswer]
      cases hk : σ.down[k]? with
      | none => exact iff_of_true hsound (by simp)
      | some d =>
        have hd := h.down d (List.mem_of_getElem? hk)
        simp only [Option.mem_def, Option.some.injEq, forall_eq']
        -- A client that has not started reads the datagram in `startup`, where nothing is acknowledged.
        cases hstarted : (σ.clients d.receiver).started with
        | true =>
          rw [if_pos (by simp [reads, hstarted])]
          have := sound_deliver_iff (σ := { σ with down := if keep then σ.down else σ.down.eraseIdx k })
            (h.of_subset (List.Subset.refl _)
              (by split <;> [exact List.Subset.refl _; exact (List.eraseIdx_sublist _ _).subset])
              (List.Subset.refl _)) hsound hd hstarted now
          simpa using this
        | false =>
          refine iff_of_true ?_ (by simp)
          split
          · unfold Sound
            simp only [deliver, hstarted, Bool.false_eq_true, if_false]
            rw [removed_turn_quiet Session.Quiet.startupReceive]
            exact hsound
          · exact hsound
    | loseDown k => exact iff_of_true hsound trivial
    | fire k =>
      refine iff_of_true ?_ trivial
      simp only [step]
      split <;> exact hsound
    | tick now => exact iff_of_true hsound trivial
    | _ => cases hcaller

/-- In every run, over any network, only calls that the server has accepted leave an output queue, if and
    only if each number that removes an entry comes from the entry's own request or finds it accepted. -/
theorem removal_sound_iff (accepts : Int → Bool) (id : Nat) (players : List String) (name : Address ↪ String)
    (as : List Action) :
    Machine.Always (step accepts) Sound (start id players name) as ↔
      Machine.Along (step accepts) OwnAnswer (start id players name) as :=
  Machine.always_iff_along (I := Inv name fun _ => True)
    (fun σ a h => h.step (callHas_trivial σ a)) (fun _ _ h hsound => sound_step_iff h hsound)
    (Inv.start id players) (fun _ hr => absurd hr List.not_mem_nil)

/-- The first request of one player is lost, and the first `Sync` of the other one removes its entry. -/
theorem foreign_sync_removes :
    ¬∀ (accepts : Int → Bool) (id : Nat) (players : List String) (name : Address ↪ String) (as : List Action),
      Machine.Always (step accepts) Sound (start id players name) as := by
  intro h
  have hend := Machine.always_iff_prefix.mp (h anyDelay 0 ["a", "aa"] letters (duel ++
    [.sync 0 10 7 0, .loseUp 0, .sync 1 10 8 0, .toServer 0 0 false false, .fire 0, .toClient 1 20 false]))
    _ (List.prefix_refl _)
  revert hend
  unfold Sound
  decide +kernel

end Net

end MultiSlider
