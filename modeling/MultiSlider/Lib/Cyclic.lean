import Mathlib.Data.List.Nodup
import Mathlib.Data.Nat.ModEq

/-! Cyclic sequence numbers. A number that is kept modulo `n` is compared with another by how far it
    lies ahead of it on the circle; a receiver with a window of `w` numbers takes those less than `w`
    ahead. -/

namespace Cyclic

/-- `b` lies ahead of `a`, by less than `w` positions, on the circle of `n` numbers. -/
def Ahead (n w a b : Int) : Prop := 0 < (b - a) % n ∧ (b - a) % n < w

instance (n w a b : Int) : Decidable (Ahead n w a b) := by unfold Ahead; infer_instance

variable {n w a b : Int}

@[simp] theorem ahead_emod_right : Ahead n w a (b % n) ↔ Ahead n w a b := by
  simp [Ahead, Int.emod_sub_emod]

@[simp] theorem ahead_emod_left : Ahead n w (a % n) b ↔ Ahead n w a b := by
  simp [Ahead, Int.sub_emod_emod]

/-- A difference of less than the circle, once around it where it is negative. -/
theorem sub_emod (hlow : a < b + n) (hhigh : b < a + n) : (b - a) % n = if a ≤ b then b - a else n + b - a := by
  split
  · rw [Int.emod_eq_of_lt (by omega) (by omega)]
  · rw [← Int.add_emod_right, Int.emod_eq_of_lt (by omega) (by omega)]
    omega

/-- On the numbers `0 .. n - 1` the cyclic test is two range tests, one of them past the wrap. -/
theorem ahead_iff_ranges (ha : 0 ≤ a ∧ a < n) (hb : 0 ≤ b ∧ b < n) (hw : w ≤ n) :
    Ahead n w a b ↔ (a < b ∧ b - a < w) ∨ (a < n + b ∧ n + b - a < w) := by
  unfold Ahead
  rw [sub_emod (by omega) (by omega)]
  split <;> omega

/-- Where `b` is less than half a circle away from `a`, being ahead is a matter of plain order. -/
theorem ahead_iff_of_near (hw : 0 < w ∧ 2 * w ≤ n) (hlow : a < b + w) (hhigh : b < a + n) :
    Ahead n w a b ↔ a < b ∧ b < a + w := by
  unfold Ahead
  rw [sub_emod (by omega) (by omega)]
  split <;> omega

/-- A number at most `w - 1` behind is not ahead. -/
theorem not_ahead_of_behind (hw : 0 < w ∧ 2 * w ≤ n) (hle : b ≤ a) (hlow : a < b + w) : ¬Ahead n w a b := by
  rw [ahead_iff_of_near hw hlow (by omega)]
  omega

/-- `b` lies less than `w` positions from `a` on the circle of `n` numbers, ahead of it or behind. -/
def Within (n w a b : Int) : Prop := (b - a) % n < w ∨ (a - b) % n < w

instance (n w a b : Int) : Decidable (Within n w a b) := inferInstanceAs (Decidable (_ ∨ _))

theorem within_comm : Within n w a b ↔ Within n w b a := Or.comm

@[simp] theorem within_emod_right : Within n w a (b % n) ↔ Within n w a b := by
  simp [Within, Int.emod_sub_emod, Int.sub_emod_emod]

@[simp] theorem within_emod_left : Within n w (a % n) b ↔ Within n w a b := by
  rw [within_comm, within_emod_right, within_comm]

/-- Positions less than `w` apart. -/
theorem within_of_near (hw : w ≤ n) (hlow : a < b + w) (hhigh : b < a + w) : Within n w a b := by
  rcases Int.le_total a b with hle | hle
  · refine Or.inl ?_
    rw [Int.emod_eq_of_lt (by omega) (by omega)]
    omega
  · refine Or.inr ?_
    rw [Int.emod_eq_of_lt (by omega) (by omega)]
    omega

/-- A receiver with a window of `w` numbers takes what is within it, or has it less than `w` behind. -/
theorem ahead_or_behind_iff (hn : 0 < n) (hw : 0 < w) : Ahead n w a b ∨ (a - b) % n < w ↔ Within n w a b := by
  constructor
  · exact Or.imp_left And.right
  · rintro (hnear | hbehind)
    · rcases (Int.emod_nonneg (b - a) (Int.ne_of_gt hn)).lt_or_eq with hpos | hzero
      · exact Or.inl ⟨hpos, hnear⟩
      · -- The numbers are equal, so neither lies ahead.
        have hdvd : n ∣ a - b := by
          rw [← Int.dvd_neg, Int.neg_sub]
          exact Int.dvd_of_emod_eq_zero hzero.symm
        refine Or.inr ?_
        rw [Int.emod_eq_zero_of_dvd hdvd]
        exact hw
    · exact Or.inr hbehind

/-- Positions less than a circle apart have different numbers. -/
theorem nodup_map_mod {n top : Nat} {ks : List Nat} (hnodup : ks.Nodup) (hks : ∀ k ∈ ks, k ≤ top ∧ top < k + n) :
    (ks.map (· % n)).Nodup := by
  have hlt : ∀ j k, j ≤ k → k < j + n → j % n = k % n → j = k := by
    intro j k hle hnear heq
    have hdvd : n ∣ k - j := (Nat.modEq_iff_dvd' hle).mp heq
    have hzero := Nat.eq_zero_of_dvd_of_lt hdvd (by omega)
    omega
  refine hnodup.map_on fun j hj k hk heq => ?_
  have hjtop := hks j hj
  have hktop := hks k hk
  rcases Nat.le_total j k with hle | hle
  · exact hlt j k hle (by omega) heq
  · exact (hlt k j hle (by omega) heq.symm).symm

end Cyclic
