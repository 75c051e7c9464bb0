import MultiSlider.Lib.Window
import MultiSlider.Session.Session
import MultiSlider.Session.SessionActor

/-! The two sequence filters, `checkAcknowlegment` of the server and `checkAcknowledgement` of the client.
    On the indices 0 .. 1023 both take what lies 1 to 31 positions ahead of the index taken last, on the
    circle of 1024; the branch meant for indices behind it repeats an earlier test. -/

namespace MultiSlider
open Cyclic

/-- The index lies 1 to 31 positions ahead, modulo 1024. -/
abbrev AheadIdx (last idx : Int) : Prop := Ahead 1024 32 last idx

/-- An index that `getNextSeqIdx` can issue. -/
def IsIdx (x : Int) : Prop := 0 ≤ x ∧ x < 1024

theorem isIdx_emod (x : Int) : IsIdx (x % 1024) := by
  unfold IsIdx
  omega

namespace MessagesSequenceInfo

variable {info info' : MessagesSequenceInfo} {ackIdx : Int}

/-- What the filter stores where it returns true. -/
theorem checkAcknowlegment_some (h : info.checkAcknowlegment ackIdx = some info') :
    info'.remoteSeqIdx = ackIdx ∧ info'.localSeqIdx = info.localSeqIdx := by
  unfold checkAcknowlegment at h
  split at h
  · cases h
  · split at h
    · cases h
      exact ⟨rfl, rfl⟩
    · rename_i hahead
      split at h
      · cases h
        exact ⟨rfl, rfl⟩
      · simp at h

/-- The index lies ahead of the one stored, or does so after the modulus is added, in `Int` arithmetic. -/
def Fresh (info : MessagesSequenceInfo) (ackIdx : Int) : Prop :=
  info.remoteSeqIdx ≠ ackIdx ∧
    ((info.remoteSeqIdx < ackIdx ∧ toInt (ackIdx - info.remoteSeqIdx) < ackHistorySize) ∨
      (info.remoteSeqIdx < toInt (idxWrapModule + ackIdx) ∧
        toInt (toInt (idxWrapModule + ackIdx) - info.remoteSeqIdx) < ackHistorySize))

instance (info : MessagesSequenceInfo) (ackIdx : Int) : Decidable (info.Fresh ackIdx) := by
  unfold Fresh
  infer_instance

/-- The filter takes any index that is fresh, within 0 .. 1023 or not. -/
theorem checkAcknowlegment_isSome_iff : (info.checkAcknowlegment ackIdx).isSome ↔ info.Fresh ackIdx := by
  unfold checkAcknowlegment Fresh
  split
  · rename_i heq
    simp [heq]
  · rename_i hne
    split
    · rename_i hnear
      exact iff_of_true rfl ⟨hne, Or.inl hnear⟩
    · rename_i hfar
      split
      · rename_i hpast
        exact iff_of_true rfl ⟨hne, Or.inr hpast⟩
      · rename_i hnot
        simp only [Option.isSome_none, Bool.false_eq_true, false_iff]
        rintro ⟨-, hnear | hpast⟩
        · exact hfar hnear
        · exact hnot hpast

theorem checkAcknowlegment_isSome (hr : IsIdx info.remoteSeqIdx) (ha : IsIdx ackIdx) :
    (info.checkAcknowlegment ackIdx).isSome ↔ AheadIdx info.remoteSeqIdx ackIdx := by
  obtain ⟨hr0, hr1⟩ := hr
  obtain ⟨ha0, ha1⟩ := ha
  have hsub : toInt (ackIdx - info.remoteSeqIdx) = ackIdx - info.remoteSeqIdx :=
    toInt_of_range (by omega) (by omega)
  have hadd : toInt (idxWrapModule + ackIdx) = 1024 + ackIdx := toInt_of_range (by simp [idxWrapModule]; omega)
    (by simp [idxWrapModule]; omega)
  have hwrap : toInt (1024 + ackIdx - info.remoteSeqIdx) = 1024 + ackIdx - info.remoteSeqIdx :=
    toInt_of_range (by omega) (by omega)
  rw [AheadIdx, ahead_iff_ranges ⟨hr0, hr1⟩ ⟨ha0, ha1⟩ (by omega)]
  unfold checkAcknowlegment
  simp only [hsub, hadd, hwrap, ackHistorySize]
  split
  · rename_i heq
    simp only [Option.isSome_none, Bool.false_eq_true, false_iff]
    omega
  · split
    · rename_i hnear
      exact iff_of_true rfl (Or.inl ⟨hnear.1, hnear.2⟩)
    · rename_i heq hfar
      split
      · rename_i hpast
        exact iff_of_true rfl (Or.inr ⟨hpast.1, hpast.2⟩)
      · simp only [Option.isSome_none, Bool.false_eq_true, false_iff]
        omega

end MessagesSequenceInfo

namespace Session

variable {s s' : Session} {ackIdx : Nat}

/-- What the filter leaves where it returns true. -/
theorem checkAcknowledgement_some (h : s.checkAcknowledgement ackIdx = some s') :
    ∃ bits, s' = { s.removeAcknowledged ackIdx with previousIdxBits := bits, remoteSeqIdx := ackIdx } := by
  unfold checkAcknowledgement at h
  split at h
  · cases h
  · split at h
    · cases h
      exact ⟨_, rfl⟩
    · rename_i hahead
      split at h
      · cases h
        exact ⟨_, rfl⟩
      · simp at h

theorem checkAcknowledgement_isSome (hr : IsIdx s.remoteSeqIdx) (ha : IsIdx ackIdx) :
    (s.checkAcknowledgement ackIdx).isSome ↔ AheadIdx s.remoteSeqIdx ackIdx := by
  obtain ⟨hr0, hr1⟩ := hr
  obtain ⟨ha0, ha1⟩ := ha
  rw [AheadIdx, ahead_iff_ranges ⟨hr0, hr1⟩ ⟨ha0, ha1⟩ (by omega)]
  unfold checkAcknowledgement
  simp only [messsagesBufferSize, idxWrapModulo]
  split
  · rename_i heq
    simp only [Option.isSome_none, Bool.false_eq_true, false_iff]
    omega
  · split
    · rename_i hnear
      refine iff_of_true rfl (Or.inl ?_)
      omega
    · rename_i heq hfar
      split
      · rename_i hpast
        refine iff_of_true rfl (Or.inr ?_)
        omega
      · simp only [Option.isSome_none, Bool.false_eq_true, false_iff]
        omega

end Session

end MultiSlider
