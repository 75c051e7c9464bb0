import Mathlib.Data.List.Lex
import MultiSlider.Lib.SortedMap

/-! JSON values and the texts that stand for them. A text is a list of bytes. How numbers are spelled, and which
    bytes the escape of a UTF-16 code unit stands for, are parameters of the grammar. -/

namespace JsonText

universe u

/-- A text as the bytes that it is sent as. -/
abbrev Bytes := List UInt8

/-- The order of unsigned bytes, and with it the lexicographic one of texts. -/
instance byteOrder : LinearOrder UInt8 where
  le_refl := UInt8.le_refl
  le_trans _ _ _ := UInt8.le_trans
  le_antisymm _ _ := UInt8.le_antisymm
  le_total := UInt8.le_total
  lt_iff_le_not_ge a b := by
    rw [UInt8.not_le]
    exact ⟨fun h => ⟨UInt8.le_of_lt h, h⟩, fun h => h.2⟩
  toDecidableLE := inferInstance
  toDecidableLT := inferInstance

/-! ### Characters -/

/-! The bytes that the grammar names. -/

abbrev quote : UInt8 := 0x22
abbrev apostrophe : UInt8 := 0x27
abbrev comma : UInt8 := 0x2C
abbrev slash : UInt8 := 0x2F
abbrev colon : UInt8 := 0x3A
abbrev openBracket : UInt8 := 0x5B
abbrev backslash : UInt8 := 0x5C
abbrev closeBracket : UInt8 := 0x5D
abbrev openBrace : UInt8 := 0x7B
abbrev closeBrace : UInt8 := 0x7D

def nullText : Bytes := [0x6E, 0x75, 0x6C, 0x6C]
def trueText : Bytes := [0x74, 0x72, 0x75, 0x65]
def falseText : Bytes := [0x66, 0x61, 0x6C, 0x73, 0x65]

/-- White space between the tokens: a space, a tab, a line feed or a carriage return. -/
def isWhite (b : UInt8) : Bool := b == 0x20 || b == 0x09 || b == 0x0A || b == 0x0D

/-- White space only. -/
def Blank (t : Bytes) : Prop := ∀ b ∈ t, isWhite b

instance (t : Bytes) : Decidable (Blank t) := List.decidableBAll (fun b => isWhite b = true) t

/-- The value of a hexadecimal digit. -/
def hexDigit (b : UInt8) : Option Nat :=
  if 0x30 ≤ b ∧ b ≤ 0x39 then some (b.toNat - 0x30)
  else if 0x41 ≤ b ∧ b ≤ 0x46 then some (b.toNat - 0x41 + 10)
  else if 0x61 ≤ b ∧ b ≤ 0x66 then some (b.toNat - 0x61 + 10)
  else none

/-- The number that four hexadecimal digits stand for. -/
def codeUnit (b₁ b₂ b₃ b₄ : UInt8) : Option Nat := do
  let d₁ ← hexDigit b₁
  let d₂ ← hexDigit b₂
  let d₃ ← hexDigit b₃
  let d₄ ← hexDigit b₄
  return ((d₁ * 16 + d₂) * 16 + d₃) * 16 + d₄

/-- The character that a backslash and this one stand for. -/
def shortEscape (b : UInt8) : Option UInt8 :=
  if b = quote then some quote
  else if b = backslash then some backslash
  else if b = slash then some slash
  else if b = 0x62 then some 0x08
  else if b = 0x66 then some 0x0C
  else if b = 0x6E then some 0x0A
  else if b = 0x72 then some 0x0D
  else if b = 0x74 then some 0x09
  else none

/-! ### Values -/

/-- A JSON value; what its numbers are is left open. -/
inductive Value (ν : Type u) where
  | null
  | bool (b : Bool)
  | number (x : ν)
  | string (s : Bytes)
  | array (xs : List (Value ν))
  | object (fields : List (Bytes × Value ν))

variable {ν : Type u}

/-- The members of an object in the order of its text. -/
abbrev Fields (ν : Type u) := List (Bytes × Value ν)

mutual

/-- The value with the fields of each object as a map: in the order of their keys, the last one of each key. -/
def Value.normal : Value ν → Value ν
  | .array xs => .array (normalAll xs)
  | .object fields => .object (SortedMap.storeAll [] (normalFields fields))
  | v => v

/-- The normal forms of the elements of an array. -/
def normalAll : List (Value ν) → List (Value ν)
  | [] => []
  | v :: vs => v.normal :: normalAll vs

/-- The members with normal values, all of them still and in their order. -/
def normalFields : Fields ν → Fields ν
  | [] => []
  | (key, v) :: fields => (key, v.normal) :: normalFields fields

end

mutual

/-- In every object the keys increase. -/
def Value.IsNormal : Value ν → Prop
  | .array xs => AllNormal xs
  | .object fields => SortedMap.Sorted fields ∧ FieldsNormal fields
  | _ => True

/-- All elements of an array are normal. -/
def AllNormal : List (Value ν) → Prop
  | [] => True
  | v :: vs => v.IsNormal ∧ AllNormal vs

/-- The values of all members are normal. -/
def FieldsNormal : Fields ν → Prop
  | [] => True
  | (_, v) :: fields => v.IsNormal ∧ FieldsNormal fields

end

/-! ### Texts -/

/-- What stands between the quotes for a string. The escape of a code unit stands for the bytes that `unit` gives, and
    is not allowed where it gives none. -/
inductive Escapes (unit : Nat → Option Bytes) : Bytes → Bytes → Prop where
  | nil : Escapes unit [] []
  | plain {b : UInt8} {s t : Bytes} (noQuote : b ≠ quote) (noBackslash : b ≠ backslash) (rest : Escapes unit s t) :
    Escapes unit (b :: s) (b :: t)
  | short {b c : UInt8} {s t : Bytes} (stands : shortEscape c = some b) (rest : Escapes unit s t) :
    Escapes unit (b :: s) (backslash :: c :: t)
  | unicode {b₁ b₂ b₃ b₄ : UInt8} {n : Nat} {bytes s t : Bytes} (digits : codeUnit b₁ b₂ b₃ b₄ = some n)
    (stands : unit n = some bytes) (rest : Escapes unit s t) :
    Escapes unit (bytes ++ s) (backslash :: 0x75 :: b₁ :: b₂ :: b₃ :: b₄ :: t)

/-- What a text can stand for: a value, the elements between the brackets of an array, or the members between the
    braces of an object. -/
inductive Phrase (ν : Type u) where
  | value (v : Value ν)
  | elements (xs : List (Value ν))
  | members (fields : Fields ν)

/-- The texts of a phrase; `number` tells how numbers are spelled. White space may stand around every token. -/
inductive Spells (unit : Nat → Option Bytes) (number : ν → Bytes → Prop) : Phrase ν → Bytes → Prop where
  | null : Spells unit number (.value .null) nullText
  | true : Spells unit number (.value (.bool true)) trueText
  | false : Spells unit number (.value (.bool false)) falseText
  | number {x : ν} {t : Bytes} (spelled : number x t) : Spells unit number (.value (.number x)) t
  | string {s t : Bytes} (escaped : Escapes unit s t) :
    Spells unit number (.value (.string s)) (quote :: t ++ [quote])
  | emptyArray {w : Bytes} (blank : Blank w) :
    Spells unit number (.value (.array [])) (openBracket :: w ++ [closeBracket])
  | array {xs : List (Value ν)} {t : Bytes} (inner : Spells unit number (.elements xs) t) :
    Spells unit number (.value (.array xs)) (openBracket :: t ++ [closeBracket])
  | emptyObject {w : Bytes} (blank : Blank w) :
    Spells unit number (.value (.object [])) (openBrace :: w ++ [closeBrace])
  | object {fields : Fields ν} {t : Bytes} (inner : Spells unit number (.members fields) t) :
    Spells unit number (.value (.object fields)) (openBrace :: t ++ [closeBrace])
  | element {v : Value ν} {w t w' : Bytes} (blank : Blank w) (inner : Spells unit number (.value v) t)
    (blank' : Blank w') : Spells unit number (.elements [v]) (w ++ t ++ w')
  | elements {v : Value ν} {xs : List (Value ν)} {w t w' t' : Bytes} (blank : Blank w)
    (inner : Spells unit number (.value v) t) (blank' : Blank w') (more : Spells unit number (.elements xs) t') :
    Spells unit number (.elements (v :: xs)) (w ++ t ++ w' ++ comma :: t')
  | member {key : Bytes} {v : Value ν} {w k w₁ w₂ t w' : Bytes} (blank : Blank w) (escaped : Escapes unit key k)
    (blank₁ : Blank w₁) (blank₂ : Blank w₂) (inner : Spells unit number (.value v) t) (blank' : Blank w') :
    Spells unit number (.members [(key, v)])
      (w ++ (quote :: k ++ [quote]) ++ w₁ ++ colon :: (w₂ ++ t ++ w'))
  | members {key : Bytes} {v : Value ν} {fields : Fields ν} {w k w₁ w₂ t w' t' : Bytes} (blank : Blank w)
    (escaped : Escapes unit key k) (blank₁ : Blank w₁) (blank₂ : Blank w₂)
    (inner : Spells unit number (.value v) t) (blank' : Blank w') (more : Spells unit number (.members fields) t') :
    Spells unit number (.members ((key, v) :: fields))
      (w ++ (quote :: k ++ [quote]) ++ w₁ ++ colon :: (w₂ ++ t ++ w' ++ comma :: t'))

/-! ### Normal values -/

theorem fieldsNormal_iff {fields : Fields ν} : FieldsNormal fields ↔ ∀ e ∈ fields, e.2.IsNormal := by
  induction fields with
  | nil => exact iff_of_true trivial (List.forall_mem_nil _)
  | cons e fields ih =>
    rw [List.forall_mem_cons, ← ih]
    rfl

theorem FieldsNormal.store {fields : Fields ν} {key : Bytes} {v : Value ν} (h : FieldsNormal fields) (hv : v.IsNormal) :
    FieldsNormal (SortedMap.store key v fields) := by
  refine fieldsNormal_iff.mpr fun e he => ?_
  rcases SortedMap.mem_store he with rfl | he
  · exact hv
  · exact fieldsNormal_iff.mp h e he

mutual

/-- A value whose objects have their keys in order is what it is read as. -/
theorem Value.IsNormal.normal_eq : ∀ {v : Value ν}, v.IsNormal → v.normal = v
  | .null, _ | .bool _, _ | .number _, _ | .string _, _ => rfl
  | .array _, h => congrArg Value.array (AllNormal.normalAll_eq h)
  | .object fields, ⟨hsorted, h⟩ => by
    rw [Value.normal, FieldsNormal.normalFields_eq h, SortedMap.storeAll_of_sorted hsorted]

theorem AllNormal.normalAll_eq : ∀ {xs : List (Value ν)}, AllNormal xs → normalAll xs = xs
  | [], _ => rfl
  | _ :: _, ⟨hv, hvs⟩ => congrArg₂ List.cons hv.normal_eq (AllNormal.normalAll_eq hvs)

theorem FieldsNormal.normalFields_eq : ∀ {fields : Fields ν}, FieldsNormal fields → normalFields fields = fields
  | [], _ => rfl
  | (key, _) :: _, ⟨hv, hfields⟩ =>
    congrArg₂ List.cons (congrArg (Prod.mk key) hv.normal_eq) (FieldsNormal.normalFields_eq hfields)

end

/-! ### Texts with fewer escapes -/

variable {unit unit' : Nat → Option Bytes} {number : ν → Bytes → Prop} {s t : Bytes}

theorem Escapes.mono (hunit : ∀ n bytes, unit n = some bytes → unit' n = some bytes) (h : Escapes unit s t) :
    Escapes unit' s t := by
  induction h with
  | nil => exact .nil
  | plain noQuote noBackslash _ ih => exact .plain noQuote noBackslash ih
  | short stands _ ih => exact .short stands ih
  | unicode digits stands _ ih => exact .unicode digits (hunit _ _ stands) ih

theorem Spells.mono (hunit : ∀ n bytes, unit n = some bytes → unit' n = some bytes) {phrase : Phrase ν}
    (h : Spells unit number phrase t) : Spells unit' number phrase t := by
  induction h with
  | null => exact .null
  | true => exact .true
  | false => exact .false
  | number spelled => exact .number spelled
  | string escaped => exact .string (escaped.mono hunit)
  | emptyArray blank => exact .emptyArray blank
  | array _ ih => exact .array ih
  | emptyObject blank => exact .emptyObject blank
  | object _ ih => exact .object ih
  | element blank _ blank' ih => exact .element blank ih blank'
  | elements blank _ blank' _ ih ihMore => exact .elements blank ih blank' ihMore
  | member blank escaped blank₁ blank₂ _ blank' ih =>
    exact .member blank (escaped.mono hunit) blank₁ blank₂ ih blank'
  | members blank escaped blank₁ blank₂ _ blank' _ ih ihMore =>
    exact .members blank (escaped.mono hunit) blank₁ blank₂ ih blank' ihMore

end JsonText
