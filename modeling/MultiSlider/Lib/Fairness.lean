import MultiSlider.Lib.Machine

/-! Schedules that go on for ever. Where every step keeps a measure from growing, and in a state that is not done
    some action lessens it until it has been lessened, a schedule in which each of these actions comes up again and
    again gets the machine done. -/

namespace Machine

universe u v

variable {S : Type u} {A : Type v}

/-- The state after the first `n` actions of the schedule. -/
def trace (step : S → A → S) (s : S) (schedule : Nat → A) : Nat → S
  | 0 => s
  | n + 1 => step (trace step s schedule n) (schedule n)

/-- What the steps of a schedule do to a measure, where `I` is an invariant and `ok` allows the action. -/
structure Lessens (step : S → A → S) (I Done : S → Prop) (ok : A → Prop) (measure : S → Nat) : Prop where
  keeps : ∀ s a, I s → ok a → I (step s a)
  le : ∀ s a, I s → ok a → measure (step s a) ≤ measure s
  /-- An action that lessens the measure does so until another one has. -/
  persists : ∀ s a b, I s → ok a → ok b → measure (step s b) < measure s → measure (step s a) = measure s →
    measure (step (step s a) b) < measure (step s a)
  done : ∀ s a, I s → ok a → Done s → Done (step s a)

variable {step : S → A → S} {I Done : S → Prop} {ok : A → Prop} {measure : S → Nat} {s : S} {schedule : Nat → A}

theorem Lessens.invariant (h : Lessens step I Done ok measure) (hs : I s) (hok : ∀ n, ok (schedule n)) (n : Nat) :
    I (trace step s schedule n) := by
  induction n with
  | zero => exact hs
  | succ n ih => exact h.keeps _ _ ih (hok n)

/-- When a helpful action has come up, the measure is less. -/
theorem Lessens.lessened (h : Lessens step I Done ok measure) (hs : I s) (hok : ∀ n, ok (schedule n)) {n d : Nat}
    (hhelps : measure (step (trace step s schedule n) (schedule (n + d))) < measure (trace step s schedule n)) :
    ∃ m, n < m ∧ measure (trace step s schedule m) < measure (trace step s schedule n) := by
  induction d generalizing n with
  | zero => exact ⟨n + 1, Nat.lt_succ_self n, hhelps⟩
  | succ d ih =>
    have hinv := h.invariant hs hok n
    rcases Nat.lt_or_eq_of_le (h.le _ _ hinv (hok n)) with hless | hsame
    · exact ⟨n + 1, Nat.lt_succ_self n, hless⟩
    · have hstill := h.persists _ _ _ hinv (hok n) (hok (n + (d + 1))) hhelps hsame
      have hnext : n + 1 + d = n + (d + 1) := by omega
      obtain ⟨m, hm, hless⟩ := ih (n := n + 1) (by rw [hnext]; exact hstill)
      exact ⟨m, Nat.lt_of_succ_lt hm, Nat.lt_of_lt_of_eq hless hsame⟩

/-- A schedule in which the helpful actions come up again and again gets the machine done, for good. -/
theorem Lessens.eventually_done (h : Lessens step I Done ok measure) (hs : I s) (hok : ∀ n, ok (schedule n))
    (hfair : ∀ n, ¬Done (trace step s schedule n) → ∃ d,
      measure (step (trace step s schedule n) (schedule (n + d))) < measure (trace step s schedule n)) :
    ∃ n, ∀ m, n ≤ m → Done (trace step s schedule m) := by
  have hreached (k n : Nat) (hk : measure (trace step s schedule n) = k) : ∃ m, Done (trace step s schedule m) := by
    induction k using Nat.strongRecOn generalizing n with
    | ind k ih =>
      by_cases hdone : Done (trace step s schedule n)
      · exact ⟨n, hdone⟩
      · obtain ⟨d, hhelps⟩ := hfair n hdone
        obtain ⟨m, -, hless⟩ := h.lessened hs hok hhelps
        exact ih _ (hk ▸ hless) m rfl
  obtain ⟨n, hn⟩ := hreached _ 0 rfl
  refine ⟨n, fun m hm => ?_⟩
  induction hm with
  | refl => exact hn
  | @step m _ ih => exact h.done _ _ (h.invariant hs hok m) (hok m) ih

end Machine
