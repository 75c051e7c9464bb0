import MultiSlider.Session.Steps

/-! The range of the sequence indices. The server checks that the index of a numbered request is below the
    modulus, and not that it is 0 or more. A negative index passes the filter where it lies just ahead of the one
    stored once the modulus is added, and is stored as it is; from there no index of a client is ahead. -/

namespace MultiSlider
open Cyclic

namespace MessagesSequenceInfo

variable {info : MessagesSequenceInfo} {ackIdx : Int}

/-- The negative indices that the filter takes. -/
def TakesBelow (info : MessagesSequenceInfo) (ackIdx : Int) : Prop :=
  ackIdx < 0 ∧ info.remoteSeqIdx < 1024 + ackIdx ∧ 1024 + ackIdx < info.remoteSeqIdx + 32

instance (info : MessagesSequenceInfo) (ackIdx : Int) : Decidable (info.TakesBelow ackIdx) := by
  unfold TakesBelow
  infer_instance

theorem takesBelow_iff (hr : IsIdx info.remoteSeqIdx) (hlow : -2 ^ 31 ≤ ackIdx) :
    info.TakesBelow ackIdx ↔ ackIdx < 0 ∧ info.Fresh ackIdx := by
  obtain ⟨hr0, hr1⟩ := hr
  unfold TakesBelow Fresh
  refine and_congr_right fun hneg => ?_
  have hadd : toInt (idxWrapModule + ackIdx) = 1024 + ackIdx :=
    toInt_of_range (by simp [idxWrapModule]; omega) (by simp [idxWrapModule]; omega)
  rw [hadd]
  constructor
  · rintro ⟨hahead, hnear⟩
    refine ⟨by omega, Or.inr ⟨hahead, ?_⟩⟩
    rw [toInt_of_range (by omega) (by omega)]
    simp [ackHistorySize]
    omega
  · rintro ⟨-, ⟨habove, -⟩ | ⟨hahead, hnear⟩⟩
    · omega
    · rw [toInt_of_range (by omega) (by omega)] at hnear
      simp only [ackHistorySize] at hnear
      omega

/-- From an index in the range the filter takes the next one. -/
theorem exists_next (hr : IsIdx info.remoteSeqIdx) : ∃ idx, IsIdx idx ∧ (info.checkAcknowlegment idx).isSome := by
  refine ⟨(info.remoteSeqIdx + 1) % 1024, isIdx_emod _, ?_⟩
  rw [checkAcknowlegment_isSome hr (isIdx_emod _), AheadIdx, ahead_emod_right]
  unfold Ahead
  omega

end MessagesSequenceInfo

namespace SessionActor

/-- The indices of every player are in the range, and some index in the range is accepted. -/
structure Sequenced (a : SessionActor) : Prop where
  range : ∀ name info, a.seqStats name = some info → IsIdx info.localSeqIdx ∧ IsIdx info.remoteSeqIdx
  accepting : ∀ name info, a.seqStats name = some info → ∃ idx, IsIdx idx ∧ (info.checkAcknowlegment idx).isSome

/-- The event is no request with a negative index that the filter takes. -/
def NotBelow (a : SessionActor) : Event → Prop
  | .receive _ _ (.json (.requestSync playerName _ _ seqIdx)) => a.stopped = false → a.state = .running →
    ∀ info, a.seqStats playerName = some info → ¬info.TakesBelow (toInt seqIdx)
  | _ => True

variable {accepts : Int → Bool} {a a' : SessionActor}

theorem sequenced_of_range
    (h : ∀ name info, a.seqStats name = some info → IsIdx info.localSeqIdx ∧ IsIdx info.remoteSeqIdx) :
    a.Sequenced :=
  ⟨h, fun name info hinfo => MessagesSequenceInfo.exists_next (h name info hinfo).2⟩

theorem Sequenced.congr (h : a.Sequenced) (heq : a'.seqStats = a.seqStats) : a'.Sequenced := by
  refine sequenced_of_range fun name info hinfo => ?_
  rw [heq] at hinfo
  exact h.range name info hinfo

/-- The state of one player is replaced. -/
theorem Sequenced.update_iff (h : a.Sequenced) {name : String} {info : MessagesSequenceInfo}
    (heq : a'.seqStats = Function.update a.seqStats name (some info)) :
    a'.Sequenced ↔ IsIdx info.localSeqIdx ∧ IsIdx info.remoteSeqIdx := by
  constructor
  · intro h'
    refine h'.range name info ?_
    rw [heq, Function.update_self]
  · intro hinfo
    refine sequenced_of_range fun name' info' hinfo' => ?_
    rw [heq] at hinfo'
    by_cases hname : name' = name
    · subst hname
      rw [Function.update_self] at hinfo'
      cases hinfo'
      exact hinfo
    · rw [Function.update_of_ne hname] at hinfo'
      exact h.range name' info' hinfo'

/-- An event keeps the indices in the range exactly if it is no such request. -/
theorem sequenced_step_iff (h : a.Sequenced) (e : Event) : (a.step accepts e).Sequenced ↔ a.NotBelow e := by
  cases e with
  | keepAlive now => exact iff_of_true (h.congr Quiet.keepAlive.seqStats) trivial
  | receive now senderAddress raw =>
    rcases receive_cases accepts a now senderAddress raw with
      ⟨hnot, hquiet | ⟨name, rfl, hjoined⟩⟩ | ⟨htakes, name, delay, syncId, seqIdx, info, rfl, htaken⟩
    · refine iff_of_true (h.congr hquiet.seqStats) ?_
      cases raw with
      | text raw => trivial
      | json message =>
        cases message with
        | requestSync name delay syncId seqIdx =>
          intro hstopped hrunning info hinfo hbelow
          have hfresh := ((MessagesSequenceInfo.takesBelow_iff (h.range name info hinfo).2 (toInt_range _).1).mp hbelow)
          have hsome := MessagesSequenceInfo.checkAcknowlegment_isSome_iff.mpr hfresh.2
          have hlow : toInt seqIdx < idxWrapModule := Int.lt_trans hfresh.1 (by decide)
          simp [takes, BackendMessage.extract, hstopped, hrunning, checkAcknowlegment, hinfo, hlow]
            at hnot
          rw [hnot] at hsome
          cases hsome
        | _ => trivial
    · exact iff_of_true ((h.update_iff hjoined.seqStats).mpr ⟨⟨by decide, by decide⟩, by decide, by decide⟩) trivial
    · obtain ⟨info', hseq, hremote, hlocal⟩ := htaken.seqStats
      obtain ⟨hlocalIdx, hremoteIdx⟩ := h.range name info htaken.found
      -- The stored index is the one of the request, which is in the range unless it is negative.
      have hfresh := MessagesSequenceInfo.checkAcknowlegment_isSome_iff.mp htaken.passes
      have hbelow := MessagesSequenceInfo.takesBelow_iff hremoteIdx (toInt_range seqIdx).1
      have hnext : IsIdx info'.localSeqIdx := by
        obtain ⟨hlow, hhigh⟩ := hlocalIdx
        rw [hlocal]
        unfold IsIdx
        split <;> omega
      have hstopped : a.stopped = false := by
        simp only [takes, BackendMessage.extract, Bool.and_eq_true, Bool.not_eq_true'] at htakes
        exact htakes.1.1.1
      change Sequenced (a.receive accepts now senderAddress _).1 ↔ _
      rw [h.update_iff hseq, hremote]
      constructor
      · rintro ⟨-, hlow, -⟩ - - info'' hinfo'' hbelow''
        exact absurd hbelow''.1 (Int.not_lt.mpr hlow)
      · intro hnot
        have hnonneg : ¬toInt seqIdx < 0 := fun hneg =>
          hnot hstopped htaken.running info htaken.found (hbelow.mpr ⟨hneg, hfresh⟩)
        exact ⟨hnext, Int.not_lt.mp hnonneg, htaken.range⟩

/-- In every run of a session the indices stay in the range exactly if no request with a negative index passes
    the filter. -/
theorem sequenced_iff (accepts : Int → Bool) (id : Nat) (players : List String) (events : List Event) :
    Machine.Always (step accepts) Sequenced (create id players) events ↔
      Machine.Along (step accepts) NotBelow (create id players) events :=
  Machine.always_iff_along (I := fun _ => True) (fun _ _ _ => trivial) (fun _ e _ h => sequenced_step_iff h e) trivial
    (sequenced_of_range fun _ _ hinfo => nomatch hinfo)

/-- After one request with a negative index none of the indices 0 .. 1023 is accepted. -/
theorem negative_index_locks :
    let events : List Event := [.receive 0 1 (.json (.ready "a")), .receive 0 1 (.json (.requestSync "a" 0 7 (-1000)))]
    let a := Machine.run (step fun _ => true) (create 0 ["a"]) events
    ¬Machine.Always (step fun _ => true) Sequenced (create 0 ["a"]) events ∧
      ∃ info, a.seqStats "a" = some info ∧ info.remoteSeqIdx = -1000 ∧
        ∀ idx, IsIdx idx → info.checkAcknowlegment idx = none := by
  intro events a
  have hstate : (a.seqStats "a").map (·.remoteSeqIdx) = some (-1000) := by decide +kernel
  obtain ⟨info, hstored, hremote⟩ := Option.map_eq_some_iff.mp hstate
  have hlocked : ∀ idx, IsIdx idx → info.checkAcknowlegment idx = none := by
    rintro idx ⟨hlow, hhigh⟩
    rw [← Option.not_isSome_iff_eq_none, MessagesSequenceInfo.checkAcknowlegment_isSome_iff]
    unfold MessagesSequenceInfo.Fresh
    simp only [hremote, idxWrapModule, ackHistorySize]
    rw [toInt_of_range (x := 1024 + idx) (by omega) (by omega), toInt_of_range (by omega) (by omega),
      toInt_of_range (by omega) (by omega)]
    omega
  refine ⟨fun h => ?_, info, hstored, hremote, hlocked⟩
  have hlast : a.Sequenced := Machine.always_iff_prefix.mp h events (List.prefix_refl events)
  obtain ⟨idx, hidx, hsome⟩ := hlast.accepting "a" info hstored
  rw [hlocked idx hidx] at hsome
  cases hsome

end SessionActor

end MultiSlider
