import MultiSlider.Session.Filter

/-! The server's filter over a whole history of arrivals. The requests of one player are numbered
    1, 2, 3, ... in the order of the calls; each carries its number modulo 1024, and its copies arrive in
    any order. The filter answers as one that remembers the last position it took, so it takes exactly
    the first copies where these arrive in order, and loses a first copy that comes late. -/

namespace MultiSlider
open Cyclic Window

namespace SessionActor

/-- What `checkAcknowlegment` returns for the requests of `player` that arrive one after another. -/
def answers (player : String) : SessionActor → List Int → List Bool
  | _, [] => []
  | a, n :: ns =>
    match a.checkAcknowlegment (n % 1024) player with
    | some a' => true :: answers player a' ns
    | none => false :: answers player a ns

/-- The sequence state that `Ready` gives a player. -/
def Fresh (a : SessionActor) (player : String) : Prop := a.seqStats player = some ⟨1, 0, 0⟩

instance (a : SessionActor) (player : String) : Decidable (a.Fresh player) := by
  unfold Fresh
  infer_instance

variable {a : SessionActor} {player : String}

/-- The filter answers as the receiver that last took the position `cur`. -/
theorem answers_eq_scan {cur : Int} {info : MessagesSequenceInfo} {ns : List Int}
    (hinfo : a.seqStats player = some info) (hcur : info.remoteSeqIdx = cur % 1024) :
    answers player a ns = scan 1024 32 cur ns := by
  induction ns generalizing a cur info with
  | nil => rfl
  | cons n ns ih =>
    have hsome : (info.checkAcknowlegment (n % 1024)).isSome ↔ Ahead 1024 32 cur n := by
      rw [MessagesSequenceInfo.checkAcknowlegment_isSome (hcur ▸ isIdx_emod cur) (isIdx_emod n), hcur, AheadIdx,
        ahead_emod_left, ahead_emod_right]
    simp only [answers, scan, checkAcknowlegment, hinfo]
    cases hc : info.checkAcknowlegment (n % 1024) with
    | none =>
      rw [hc] at hsome
      rw [if_neg fun h => by simpa using hsome.mpr h]
      exact congrArg (false :: ·) (ih hinfo hcur)
    | some info' =>
      rw [if_pos (hsome.mp (by simp [hc]))]
      have hinfo' : Function.update a.seqStats player (some info') player = some info' := Function.update_self ..
      exact congrArg (true :: ·) (ih hinfo' (MessagesSequenceInfo.checkAcknowlegment_some hc).1)

/-- Arrivals that come less than 32 positions behind what has been accepted: the filter returns true for
    exactly the first arrival of each request if and only if the first arrivals come in order, each 1 to
    31 positions ahead of the one before. -/
theorem answers_eq_firsts_iff (hfresh : a.Fresh player) {ns : List Int} (hpos : ∀ n ∈ ns, 0 < n)
    (near : Near 32 ns (answers player a ns)) :
    answers player a ns = firsts [] ns ↔ (0 :: fresh [] ns).IsChain (Ahead 1024 32) := by
  have hscan : answers player a ns = scan 1024 32 0 ns := answers_eq_scan hfresh rfl
  rw [hscan] at near ⊢
  exact scan_eq_firsts_iff ⟨by omega, by omega⟩ hpos near

/-- A session of one player who has become ready. -/
def started : SessionActor := ((create 0 ["p"]).receive (fun _ => true) 0 0 (.json (.ready "p"))).1

theorem answers_eq_firsts_repeated :
    answers "p" started [1, 2, 2, 1, 30, 30] = firsts [] [1, 2, 2, 1, 30, 30] :=
  (answers_eq_firsts_iff (by decide) (by decide) (by unfold Near; decide)).mpr (by unfold Ahead; decide)

/-- The first request arrives after the second and is lost. -/
theorem late_request_lost :
    ¬∀ (a : SessionActor) (player : String) (ns : List Int), a.Fresh player → (∀ n ∈ ns, 0 < n) →
      Near 32 ns (answers player a ns) → answers player a ns = firsts [] ns := by
  intro h
  have := h started "p" [2, 1] (by decide) (by decide) (by unfold Near; decide)
  exact absurd this (by decide)

end SessionActor

end MultiSlider
