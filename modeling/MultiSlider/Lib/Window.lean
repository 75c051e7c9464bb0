import Mathlib.Data.List.Chain
import MultiSlider.Lib.Cyclic

/-! A receiver's filter over the positions of a stream, compared with the ideal filter that takes the
    first copy of each position and no other. The receiver remembers only the last position it took and
    takes what lies ahead of it on the circle of sequence numbers. -/

namespace Window
open Cyclic

/-- The answers of the receiver that last took position `cur`. -/
def scan (n w : Int) : Int → List Int → List Bool
  | _, [] => []
  | cur, x :: xs => if Ahead n w cur x then true :: scan n w x xs else false :: scan n w cur xs

/-- The ideal answers, where the positions `seen` have arrived before. -/
def firsts : List Int → List Int → List Bool
  | _, [] => []
  | seen, x :: xs => decide (x ∉ seen) :: firsts (x :: seen) xs

/-- The positions that were not seen before their arrival, in the order they arrive. -/
def fresh : List Int → List Int → List Int
  | _, [] => []
  | seen, x :: xs => if x ∈ seen then fresh (x :: seen) xs else x :: fresh (x :: seen) xs

/-- No arrival comes `w` positions or more after a position already taken. -/
def Near (w : Int) (xs : List Int) (taken : List Bool) : Prop :=
  (xs.zip taken).Pairwise fun p q => p.2 = true → p.1 < q.1 + w

@[simp] theorem length_scan {n w cur : Int} {xs : List Int} : (scan n w cur xs).length = xs.length := by
  induction xs generalizing cur with
  | nil => rfl
  | cons x xs ih =>
    unfold scan
    split <;> simp [ih]

/-- A taken head bounds every later arrival from below. -/
theorem Near.of_taken {w x : Int} {xs : List Int} {taken : List Bool} (h : Near w (x :: xs) (true :: taken))
    (hlen : taken.length = xs.length) : ∀ y ∈ xs, x < y + w := by
  intro y hy
  obtain ⟨i, hi, rfl⟩ := List.mem_iff_getElem.mp hy
  have hmem : (xs[i], taken[i]) ∈ xs.zip taken := by
    rw [← List.getElem_zip (h := by simp only [List.length_zip]; omega)]
    exact List.getElem_mem _
  exact (List.pairwise_cons.mp h).1 _ hmem rfl

theorem Near.tail {w x : Int} {b : Bool} {xs : List Int} {taken : List Bool} (h : Near w (x :: xs) (b :: taken)) :
    Near w xs taken :=
  (List.pairwise_cons.mp h).2

theorem scan_eq_firsts_aux {n w : Int} (hw : 0 < w ∧ 2 * w ≤ n) {xs seen : List Int} {cur : Int}
    (hseen : ∀ m ∈ seen, m ≤ cur) (hcur : ∀ x ∈ xs, cur < x + w) (near : Near w xs (scan n w cur xs)) :
    scan n w cur xs = firsts seen xs ↔ (cur :: fresh seen xs).IsChain (Ahead n w) := by
  induction xs generalizing seen cur with
  | nil => simp [scan, firsts, fresh]
  | cons x xs ih =>
    have hx : cur < x + w := hcur x List.mem_cons_self
    by_cases hold : x ∈ seen
    · -- A repeated position lies at or behind the last one taken, within the window.
      have hno : ¬Ahead n w cur x := not_ahead_of_behind hw (hseen x hold) hx
      simp only [scan, firsts, fresh, if_neg hno, if_pos hold] at near ⊢
      simp only [not_true_eq_false, hold, decide_false, List.cons.injEq, true_and]
      refine ih (fun m hm => ?_) (fun y hy => hcur y (List.mem_cons_of_mem x hy)) near.tail
      rcases List.mem_cons.mp hm with rfl | hm
      · exact hseen m hold
      · exact hseen m hm
    · simp only [scan, firsts, fresh, if_neg hold] at near ⊢
      by_cases hyes : Ahead n w cur x
      · have hlt : cur < x := by
          by_contra hle
          exact not_ahead_of_behind hw (by omega) hx hyes
        simp only [if_pos hyes, hold, not_false_eq_true, decide_true, List.cons.injEq, true_and] at near ⊢
        rw [List.isChain_cons_cons, and_iff_right hyes]
        refine ih (fun m hm => ?_) (near.of_taken (by simp)) near.tail
        rcases List.mem_cons.mp hm with rfl | hm
        · exact Int.le_refl m
        · have := hseen m hm
          omega
      · simp [hold, hyes]

/-- On arrivals that stay in the window the receiver answers as the ideal filter does exactly if the
    first copies arrive in order, each of them ahead of the one before. -/
theorem scan_eq_firsts_iff {n w : Int} (hw : 0 < w ∧ 2 * w ≤ n) {xs : List Int} (hpos : ∀ x ∈ xs, 0 < x)
    (near : Near w xs (scan n w 0 xs)) :
    scan n w 0 xs = firsts [] xs ↔ (0 :: fresh [] xs).IsChain (Ahead n w) :=
  scan_eq_firsts_aux hw (fun _ hm => absurd hm List.not_mem_nil)
    (fun x hx => by have := hpos x hx; omega) near

end Window
