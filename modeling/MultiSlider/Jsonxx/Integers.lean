import Mathlib.Algebra.Order.Ring.Int
import Mathlib.Data.List.TakeWhile
import MultiSlider.Jsonxx.Parser

/-! Integers as the streams of the standard library read and write them, up to what a number is written with: 19 digits.
    -/

namespace MultiSlider
namespace Jsonxx

open JsonText

/-- A decimal digit. -/
def isDigit (b : UInt8) : Bool := 0x30 ≤ b && b ≤ 0x39

/-- The number that decimal digits stand for, after those that stand for `n`. -/
def readDigits (n : Nat) (t : Bytes) : Nat := t.foldl (fun n b => n * 10 + (b.toNat - 0x30)) n

/-- A sign and decimal digits, and nothing else. -/
def readInteger : Bytes → Option Int
  | [] => none
  | b :: t =>
    if b = 0x2D then if t ≠ [] ∧ t.all isDigit then some (-(readDigits 0 t : Nat)) else none
    else if (b :: t).all isDigit then some (readDigits 0 (b :: t) : Nat) else none

/-- The decimal digits of a number, in front of `t`. -/
def writeDigits : Nat → Nat → Bytes → Bytes
  | 0, _, t => t
  | fuel + 1, n, t =>
    let t := UInt8.ofNat (0x30 + n % 10) :: t
    if n / 10 = 0 then t else writeDigits fuel (n / 10) t

/-- The decimal digits, after a minus sign where the number is negative. -/
def writeInteger (x : Int) : Bytes :=
  if x < 0 then 0x2D :: writeDigits 19 x.natAbs [] else writeDigits 19 x.natAbs []

theorem readDigits_append (n : Nat) (t t' : Bytes) : readDigits n (t ++ t') = readDigits (readDigits n t) t' :=
  List.foldl_append

theorem digit_facts (n : Nat) : isDigit (UInt8.ofNat (0x30 + n % 10)) = true ∧
    (UInt8.ofNat (0x30 + n % 10)).toNat - 0x30 = n % 10 := by
  have hlt : n % 10 < 10 := Nat.mod_lt n (by decide)
  have hall : ∀ d : Fin 10, isDigit (UInt8.ofNat (0x30 + d)) = true ∧ (UInt8.ofNat (0x30 + d)).toNat - 0x30 = d := by
    decide
  exact hall ⟨n % 10, hlt⟩

/-- What is written in front of a text is not empty, consists of digits, and stands for the number. -/
theorem writeDigits_spec {fuel n : Nat} {t : Bytes} (hn : n < 10 ^ (fuel + 1)) :
    ∃ b d, writeDigits (fuel + 1) n t = b :: d ++ t ∧ (b :: d).all isDigit = true ∧ readDigits 0 (b :: d) = n := by
  obtain ⟨hdigit, hvalue⟩ := digit_facts n
  induction fuel generalizing n t with
  | zero =>
    have hsmall : n / 10 = 0 := Nat.div_eq_of_lt hn
    refine ⟨_, [], by rw [writeDigits, if_pos hsmall]; rfl, by rw [List.all_cons, hdigit]; rfl, ?_⟩
    simp only [readDigits, List.foldl_cons, List.foldl_nil, hvalue]
    omega
  | succ fuel ih =>
    by_cases hsmall : n / 10 = 0
    · refine ⟨_, [], by rw [writeDigits, if_pos hsmall]; rfl, by rw [List.all_cons, hdigit]; rfl, ?_⟩
      simp only [readDigits, List.foldl_cons, List.foldl_nil, hvalue]
      omega
    · have hless : n / 10 < 10 ^ (fuel + 1) := Nat.div_lt_of_lt_mul (by rw [← pow_succ']; exact hn)
      obtain ⟨hdigit', hvalue'⟩ := digit_facts (n / 10)
      obtain ⟨b, d, hwrite, hall, hread⟩ := ih (t := UInt8.ofNat (0x30 + n % 10) :: t) hless hdigit' hvalue'
      refine ⟨b, d ++ [UInt8.ofNat (0x30 + n % 10)], ?_, ?_, ?_⟩
      · rw [writeDigits, if_neg hsmall, hwrite]
        simp
      · rw [← List.cons_append, List.all_append, hall, List.all_cons, hdigit]
        rfl
      · rw [← List.cons_append, readDigits_append, hread, readDigits, List.foldl_cons, List.foldl_nil, hvalue]
        omega

theorem isNumeric_of_isDigit {b : UInt8} (h : isDigit b = true) : isNumeric b = true := by
  unfold isDigit at h
  unfold isNumeric
  rw [h]
  rfl

theorem writeInteger_numeric {x : Int} (h : x.natAbs < 10 ^ 19) : ∀ b ∈ writeInteger x, isNumeric b = true := by
  obtain ⟨b, d, hwrite, hall, -⟩ := writeDigits_spec (t := []) h
  have hdigits : ∀ c ∈ writeDigits 19 x.natAbs [], isNumeric c = true := fun c hc => by
    rw [hwrite, List.append_nil] at hc
    exact isNumeric_of_isDigit (List.all_eq_true.mp hall c hc)
  unfold writeInteger
  split
  · exact List.forall_mem_cons.mpr ⟨rfl, hdigits⟩
  · exact hdigits

/-- An integer that is written without rounding is read as it is. -/
theorem readInteger_write {x : Int} (h : x.natAbs < 10 ^ 19) : readInteger (writeInteger x) = some x := by
  obtain ⟨b, d, hwrite, hall, hread⟩ := writeDigits_spec (t := []) h
  rw [List.append_nil] at hwrite
  unfold writeInteger
  rw [hwrite]
  split
  · next hneg =>
    rw [readInteger, if_pos rfl, if_pos ⟨List.cons_ne_nil b d, hall⟩, hread]
    congr 1
    omega
  · next hpos =>
    have hminus : b ≠ 0x2D := by
      rintro rfl
      exact absurd (List.all_eq_true.mp hall 0x2D List.mem_cons_self) (by decide)
    rw [readInteger, if_neg hminus, if_pos hall, hread]
    congr 1
    omega

/-- What can be part of a number is taken from the input; it is a number if it is an integer. -/
def extractInteger (t : Bytes) : Option (Int × Bytes) :=
  (readInteger (t.takeWhile isNumeric)).map fun x => (x, t.dropWhile isNumeric)

/-- A text that the stream extracts whole, and reads as the number. -/
def IntegerText (x : Int) (t : Bytes) : Prop := (∀ b ∈ t, isNumeric b = true) ∧ readInteger t = some x

theorem IntegerText.head {x : Int} {t : Bytes} (h : IntegerText x t) :
    ∃ b rest, t = b :: rest ∧ isNumeric b = true := by
  cases t with
  | nil => cases h.2
  | cons b rest => exact ⟨b, rest, rfl, h.1 b List.mem_cons_self⟩

theorem extractInteger_append {x : Int} {t rest : Bytes} (h : IntegerText x t)
    (hrest : ∀ b ∈ rest.head?, isNumeric b = false) : extractInteger (t ++ rest) = some (x, rest) := by
  have htake : rest.takeWhile isNumeric = [] := by
    cases rest with
    | nil => rfl
    | cons b rest => rw [List.takeWhile_cons, hrest b rfl]; rfl
  have hdrop : rest.dropWhile isNumeric = rest := by
    cases rest with
    | nil => rfl
    | cons b rest => rw [List.dropWhile_cons, hrest b rfl]; rfl
  rw [extractInteger, List.takeWhile_append_of_pos h.1, htake, List.append_nil, h.2,
    List.dropWhile_append_of_pos h.1, hdrop]
  rfl

/-- A format in which all numbers are integers. -/
def integers : NumberFormat Int where
  read := extractInteger
  write := writeInteger
  Spelled := IntegerText
  Exact x := x.natAbs < 10 ^ 19
  read_suffix := by
    intro t x rest h
    obtain ⟨y, hread, heq⟩ := Option.map_eq_some_iff.mp h
    cases heq
    cases htake : t.takeWhile isNumeric with
    | nil =>
      rw [htake] at hread
      cases hread
    | cons b p => exact ⟨b, p, by rw [← htake, List.takeWhile_append_dropWhile]⟩
  read_spelled := extractInteger_append
  read_none := by
    intro t h
    cases t with
    | nil => rfl
    | cons b t => rw [extractInteger, List.takeWhile_cons, h b rfl]; rfl
  read_prefix := by
    intro x t p h hp
    have hall : ∀ b ∈ p, isNumeric b = true := fun b hb => h.1 b (hp.subset hb)
    have htake : p.takeWhile isNumeric = p := List.takeWhile_eq_self_iff.mpr hall
    have hdrop : p.dropWhile isNumeric = [] := List.dropWhile_eq_nil_iff.mpr hall
    rw [extractInteger, htake, hdrop]
    cases readInteger p with
    | none => exact .inl rfl
    | some y => exact .inr ⟨y, rfl⟩
  spelled_head := IntegerText.head
  spelled_write h := ⟨writeInteger_numeric h, readInteger_write h⟩

end Jsonxx
end MultiSlider
