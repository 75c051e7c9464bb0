import MultiSlider.Lib.Machine
import MultiSlider.Session.Filter

/-! The two sequence filters side by side. On the indices 0 .. 1023 they are one filter: each takes what lies 1 to 31
    positions ahead of the index it took last, on the circle, so they answer alike on every sequence, and on one that
    goes forward by less than 32 at a time they take every element, however often it wraps. -/

namespace MultiSlider
open Cyclic

namespace SessionActor

/-- The actor after `checkAcknowlegment`. -/
def acknowledge (player : String) (a : SessionActor) (ackIdx : Nat) : SessionActor :=
  (a.checkAcknowlegment ackIdx player).getD a

/-- What `checkAcknowlegment` returns for indices that come one after another. -/
def acknowledgements (player : String) (a : SessionActor) (idxs : List Nat) : List Bool :=
  Machine.outputs (acknowledge player) (fun a ackIdx => [(a.checkAcknowlegment ackIdx player).isSome]) a idxs

/-- The stored remote index of a player. -/
def remoteSeqIdx (a : SessionActor) (player : String) : Option Int := (a.seqStats player).map (·.remoteSeqIdx)

/-- The filter of a player takes an index that lies ahead, and then stores it. -/
theorem checkAcknowlegment_eq {a : SessionActor} {player : String} {last : Int} {ackIdx : Nat}
    (h : a.remoteSeqIdx player = some last) (hlast : IsIdx last) (hidx : IsIdx ackIdx) :
    ((a.checkAcknowlegment ackIdx player).isSome ↔ AheadIdx last ackIdx) ∧
      (acknowledge player a ackIdx).remoteSeqIdx player =
        some (if AheadIdx last ackIdx then (ackIdx : Int) else last) := by
  obtain ⟨info, hinfo, rfl⟩ := Option.map_eq_some_iff.mp h
  have hsome := MessagesSequenceInfo.checkAcknowlegment_isSome hlast hidx
  unfold acknowledge checkAcknowlegment
  rw [hinfo]
  dsimp only
  cases hcheck : info.checkAcknowlegment ackIdx with
  | none =>
    rw [hcheck] at hsome
    have hnot : ¬AheadIdx info.remoteSeqIdx ackIdx := fun hahead => absurd (hsome.mpr hahead) Bool.false_ne_true
    refine ⟨hsome, ?_⟩
    rw [if_neg hnot]
    exact h
  | some info' =>
    rw [hcheck] at hsome
    refine ⟨hsome, ?_⟩
    rw [if_pos (hsome.mp rfl), ← (MessagesSequenceInfo.checkAcknowlegment_some hcheck).1]
    simp [remoteSeqIdx]

end SessionActor

namespace Session

/-- The object after `checkAcknowledgement`. -/
def acknowledge (s : Session) (ackIdx : Nat) : Session := (s.checkAcknowledgement ackIdx).getD s

/-- What `checkAcknowledgement` returns for indices that come one after another. -/
def acknowledgements (s : Session) (idxs : List Nat) : List Bool :=
  Machine.outputs acknowledge (fun s ackIdx => [(s.checkAcknowledgement ackIdx).isSome]) s idxs

theorem checkAcknowledgement_eq {s : Session} {ackIdx : Nat} (hlast : IsIdx s.remoteSeqIdx) (hidx : IsIdx ackIdx) :
    ((s.checkAcknowledgement ackIdx).isSome ↔ AheadIdx s.remoteSeqIdx ackIdx) ∧
      (s.acknowledge ackIdx).remoteSeqIdx = if AheadIdx s.remoteSeqIdx ackIdx then ackIdx else s.remoteSeqIdx := by
  have hsome := checkAcknowledgement_isSome hlast hidx
  unfold acknowledge
  cases hcheck : s.checkAcknowledgement ackIdx with
  | none =>
    rw [hcheck] at hsome
    have hnot : ¬AheadIdx s.remoteSeqIdx ackIdx := fun hahead => absurd (hsome.mpr hahead) Bool.false_ne_true
    exact ⟨hsome, (if_neg hnot).symm⟩
  | some s' =>
    rw [hcheck] at hsome
    obtain ⟨bits, rfl⟩ := checkAcknowledgement_some hcheck
    exact ⟨hsome, (if_pos (hsome.mp rfl)).symm⟩

end Session

namespace Filters

/-- The filter of a player and that of a client took the same index last. -/
def Alike (player : String) (a : SessionActor) (s : Session) : Prop :=
  a.remoteSeqIdx player = some (s.remoteSeqIdx : Int) ∧ IsIdx s.remoteSeqIdx

variable {player : String} {a : SessionActor} {s : Session} {ackIdx : Nat}

theorem Alike.step (h : Alike player a s) (hidx : IsIdx ackIdx) :
    (a.checkAcknowlegment ackIdx player).isSome = (s.checkAcknowledgement ackIdx).isSome ∧
      Alike player (a.acknowledge player ackIdx) (s.acknowledge ackIdx) := by
  obtain ⟨hserver, hstored⟩ := SessionActor.checkAcknowlegment_eq h.1 h.2 hidx
  obtain ⟨hclient, hkept⟩ := Session.checkAcknowledgement_eq h.2 hidx
  refine ⟨Bool.eq_iff_iff.mpr (hserver.trans hclient.symm), ?_⟩
  unfold Alike
  rw [hstored, hkept]
  split
  · exact ⟨rfl, hidx⟩
  · exact ⟨rfl, h.2⟩

/-- A client takes every index of a sequence that goes forward by 1 to 31 at a time. -/
theorem acknowledgements_chain {idxs : List Nat} (hlast : IsIdx s.remoteSeqIdx) (hidxs : ∀ ackIdx ∈ idxs, ackIdx < 1024)
    (hchain : (s.remoteSeqIdx :: idxs).IsChain fun last ackIdx => AheadIdx last ackIdx) :
    ∀ answer ∈ s.acknowledgements idxs, answer = true := by
  induction idxs generalizing s with
  | nil => exact List.forall_mem_nil _
  | cons ackIdx idxs ih =>
    obtain ⟨hahead, hrest⟩ := List.isChain_cons_cons.mp hchain
    obtain ⟨hidx, hidxs⟩ := List.forall_mem_cons.mp hidxs
    have hrange : IsIdx ackIdx := ⟨Int.natCast_nonneg _, by exact_mod_cast hidx⟩
    obtain ⟨hsome, hstored⟩ := Session.checkAcknowledgement_eq hlast hrange
    rw [if_pos hahead] at hstored
    refine List.forall_mem_cons.mpr ⟨hsome.mpr hahead, ?_⟩
    refine ih ?_ hidxs ?_
    · rw [hstored]
      exact hrange
    · rw [hstored]
      exact hrest

/-- From index 0 and no history, the two filters answer alike on all indices and end with the same index; where each
    index lies 1 to 31 positions ahead of the one before, both take all of them. -/
theorem acknowledgements_agree {localSeqIdx : Int} (hserver : a.seqStats player = some ⟨localSeqIdx, 0, 0⟩)
    (hclient : s.remoteSeqIdx = 0 ∧ s.previousIdxBits = 0) {idxs : List Nat} (hidxs : ∀ ackIdx ∈ idxs, ackIdx < 1024) :
    a.acknowledgements player idxs = s.acknowledgements idxs ∧
      (Machine.run (SessionActor.acknowledge player) a idxs).remoteSeqIdx player =
        some ((Machine.run Session.acknowledge s idxs).remoteSeqIdx : Int) ∧
      ((0 :: idxs).IsChain (fun last ackIdx => AheadIdx last ackIdx) →
        (∀ answer ∈ a.acknowledgements player idxs, answer = true) ∧
          ∀ answer ∈ s.acknowledgements idxs, answer = true) := by
  have hzero : IsIdx s.remoteSeqIdx := by
    rw [hclient.1]
    exact ⟨Int.le_refl 0, by decide⟩
  have halike : Alike player a s := by
    refine ⟨?_, hzero⟩
    rw [SessionActor.remoteSeqIdx, hserver, hclient.1]
    rfl
  have hrange (ackIdx : Nat) (h : ackIdx < 1024) : IsIdx ackIdx := ⟨Int.natCast_nonneg _, by exact_mod_cast h⟩
  have hboth : a.acknowledgements player idxs = s.acknowledgements idxs ∧
      Alike player (Machine.run (SessionActor.acknowledge player) a idxs) (Machine.run Session.acknowledge s idxs) :=
    Machine.outputs_related
      (fun a s ackIdx (h : Alike player a s) (hidx : ackIdx < 1024) => (h.step (hrange ackIdx hidx)).2)
      (fun a s ackIdx h hidx => congrArg (fun answer => [answer]) (h.step (hrange ackIdx hidx)).1) halike hidxs
  obtain ⟨hsame, hend⟩ := hboth
  refine ⟨hsame, hend.1, fun hchain => ?_⟩
  rw [← hclient.1] at hchain
  have hall := acknowledgements_chain hzero hidxs hchain
  exact ⟨fun answer hanswer => hall answer (hsame ▸ hanswer), hall⟩

/-- A session with one player, who is ready. -/
def ready : SessionActor := ((SessionActor.create 0 ["p"]).receive (fun _ => true) 0 0 (.json (.ready "p"))).1

/-- Sixty-seven indices, each 31 ahead of the one before: they wrap twice. -/
def wrapping : List Nat := (List.range 67).map fun k => 31 * (k + 1) % 1024

theorem acknowledgements_agree_wraps :
    ready.acknowledgements "p" wrapping = (Session.create "p" 0).acknowledgements wrapping ∧
      ∀ answer ∈ ready.acknowledgements "p" wrapping, answer = true := by
  have hinfo : ready.seqStats "p" = some ⟨1, 0, 0⟩ := rfl
  obtain ⟨hsame, -, hchain⟩ := acknowledgements_agree (s := .create "p" 0) hinfo ⟨rfl, rfl⟩
    (show ∀ ackIdx ∈ wrapping, ackIdx < 1024 by decide +kernel)
  exact ⟨hsame, (hchain (by decide +kernel)).1⟩

end Filters

end MultiSlider
