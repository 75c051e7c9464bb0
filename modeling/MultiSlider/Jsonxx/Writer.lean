import MultiSlider.Jsonxx.Truncated

/-! The writer of `jsonxx.cc`: `json()` and what it calls. What it writes is JSON, and the parser reads it back. -/

namespace MultiSlider
namespace Jsonxx

open JsonText IStream

universe u

/-- The lower case hexadecimal digit that a stream writes. -/
def hexChar (n : Nat) : UInt8 := if n < 10 then UInt8.ofNat (0x30 + n) else UInt8.ofNat (0x57 + n)

/-- The entry of a byte in the map of `escape_string`. -/
def escapeByte (b : UInt8) : Bytes :=
  if b = quote then [backslash, quote]
  else if b = backslash then [backslash, backslash]
  else if b = slash then [backslash, slash]
  else if b = 0x08 then [backslash, 0x62]
  else if b = 0x0C then [backslash, 0x66]
  else if b = 0x0A then [backslash, 0x6E]
  else if b = 0x0D then [backslash, 0x72]
  else if b = 0x09 then [backslash, 0x74]
  else if b < 0x20 then [backslash, 0x75, 0x30, 0x30, hexChar (b.toNat / 16), hexChar (b.toNat % 16)]
  else [b]

/-- `escape_string`. -/
def escapeString (input : Bytes) : Bytes := input.flatMap escapeByte

/-- `remove_last_comma`. -/
def removeLastComma (input : Bytes) : Bytes :=
  let size := input.length
  if size > 2 ∧ input[size - 2]? = some comma then input.set (size - 2) 0x20 else input

/-- What `tag` writes before a value. -/
def heading (depth : Nat) (name : Bytes) : Bytes :=
  List.replicate depth 0x09 ++ if name = [] then [] else quote :: escapeString name ++ [quote, colon, 0x20]

variable {ν : Type u} (N : NumberFormat ν)

mutual

/-- `tag`, for the format `JSON`. -/
def tag (depth : Nat) (name : Bytes) : Value ν → Bytes
  | .null => heading depth name ++ nullText ++ [comma, 0x0A]
  | .bool b => heading depth name ++ (if b then trueText else falseText) ++ [comma, 0x0A]
  | .array xs =>
    removeLastComma (heading depth name ++ [openBracket, 0x0A] ++ tagValues (depth + 1) xs) ++
      List.replicate depth 0x09 ++ [closeBracket, comma, 0x0A]
  | .string s => heading depth name ++ (quote :: escapeString s ++ [quote]) ++ [comma, 0x0A]
  | .object fields =>
    removeLastComma (heading depth name ++ [openBrace, 0x0A] ++ tagFields (depth + 1) fields) ++
      List.replicate depth 0x09 ++ [closeBrace, comma, 0x0A]
  | .number x => heading depth name ++ N.write x ++ [comma, 0x0A]

/-- The loop of `tag` over the elements of an array. -/
def tagValues (depth : Nat) : List (Value ν) → Bytes
  | [] => []
  | v :: xs => tag depth [] v ++ tagValues depth xs

/-- The loop of `tag` over the members of an object. -/
def tagFields (depth : Nat) : Fields ν → Bytes
  | [] => []
  | (key, v) :: fields => tag depth key v ++ tagFields depth fields

end

/-- `Object::json`. -/
def json (fields : Fields ν) : Bytes := removeLastComma (tag N 0 [] (.object fields))

/-- A code unit of one byte stands for this byte, in UTF-8 as well as for the parser. -/
def asciiUnit (n : Nat) : Option Bytes := if n < 0x80 then some [UInt8.ofNat n] else none

mutual

/-- Every key is written, and every number without rounding. -/
def Writable : Value ν → Prop
  | .number x => N.Exact x
  | .array xs => AllWritable xs
  | .object fields => FieldsWritable fields
  | _ => True

/-- All values of an array can be written. -/
def AllWritable : List (Value ν) → Prop
  | [] => True
  | v :: xs => Writable v ∧ AllWritable xs

/-- All members of an object can be written; their keys are not empty. -/
def FieldsWritable : Fields ν → Prop
  | [] => True
  | (key, v) :: fields => key ≠ [] ∧ Writable v ∧ FieldsWritable fields

end

variable {N}
variable {s t w : Bytes}

/-! ### Strings -/

theorem control_codeUnit {b : UInt8} (h : b < 0x20) :
    codeUnit 0x30 0x30 (hexChar (b.toNat / 16)) (hexChar (b.toNat % 16)) = some b.toNat ∧
      asciiUnit b.toNat = some [b] := by
  have hall : ∀ b : Fin 256, UInt8.ofNat b < 0x20 →
      codeUnit 0x30 0x30 (hexChar ((UInt8.ofNat b).toNat / 16)) (hexChar ((UInt8.ofNat b).toNat % 16)) =
        some (UInt8.ofNat b).toNat ∧ asciiUnit (UInt8.ofNat b).toNat = some [UInt8.ofNat b] := by decide +kernel
  have hb := hall ⟨b.toNat, b.toNat_lt⟩
  rw [UInt8.ofNat_toNat] at hb
  exact hb h

/-- What the map holds for a byte is an escape of it, or the byte itself. -/
theorem escapeByte_escapes (b : UInt8) (h : Escapes asciiUnit s t) :
    Escapes asciiUnit (b :: s) (escapeByte b ++ t) := by
  unfold escapeByte
  split_ifs with h₁ h₂ h₃ h₄ h₅ h₆ h₇ h₈ h₉
  iterate 8
    · subst_vars
      exact .short rfl h
  · obtain ⟨digits, stands⟩ := control_codeUnit h₉
    exact .unicode digits stands h
  · exact .plain h₁ h₂ h

theorem escapeString_escapes (s : Bytes) : Escapes asciiUnit s (escapeString s) := by
  induction s with
  | nil => exact .nil
  | cons b s ih =>
    rw [escapeString, List.flatMap_cons]
    exact escapeByte_escapes b ih

/-! ### Values -/

theorem removeLastComma_comma (hne : t ≠ []) : removeLastComma (t ++ [comma, 0x0A]) = t ++ [0x20, 0x0A] := by
  have hlength : 0 < t.length := List.length_pos_iff.mpr hne
  have hsize : (t ++ [comma, 0x0A]).length - 2 = t.length := by
    rw [List.length_append]
    exact Nat.add_sub_cancel t.length 2
  have hlast : (t ++ [comma, 0x0A])[t.length]? = some comma := by
    rw [List.getElem?_append_right (Nat.le_refl _), Nat.sub_self]
    rfl
  have hcond : (t ++ [comma, 0x0A]).length > 2 ∧
      (t ++ [comma, 0x0A])[(t ++ [comma, 0x0A]).length - 2]? = some comma := by
    rw [hsize, List.length_append]
    exact ⟨Nat.lt_add_of_pos_left hlength, hlast⟩
  rw [removeLastComma, if_pos hcond, hsize, List.set_append_right _ _ (Nat.le_refl _), Nat.sub_self]
  rfl

/-- A text that does not end in a comma and a line feed is left as it is. -/
theorem removeLastComma_open {c : UInt8} (hc : c ≠ comma) : removeLastComma (t ++ [c, 0x0A]) = t ++ [c, 0x0A] := by
  have hsize : (t ++ [c, 0x0A]).length - 2 = t.length := by
    rw [List.length_append]
    exact Nat.add_sub_cancel t.length 2
  have hlast : (t ++ [c, 0x0A])[t.length]? = some c := by
    rw [List.getElem?_append_right (Nat.le_refl _), Nat.sub_self]
    rfl
  rw [removeLastComma]
  refine if_neg fun h => hc ?_
  rw [hsize, hlast] at h
  exact Option.some.inj h.2

mutual

/-- What stands for a value in what `tag` writes, between its heading and the comma. -/
def body (N : NumberFormat ν) (depth : Nat) : Value ν → Bytes
  | .null => nullText
  | .bool b => if b then trueText else falseText
  | .array xs => openBracket :: (0x0A :: bodyValues N (depth + 1) xs ++ List.replicate depth 0x09) ++ [closeBracket]
  | .string s => quote :: escapeString s ++ [quote]
  | .object fields =>
    openBrace :: (0x0A :: bodyFields N (depth + 1) fields ++ List.replicate depth 0x09) ++ [closeBrace]
  | .number x => N.write x

/-- The elements of an array, with a space in place of the last comma. -/
def bodyValues (N : NumberFormat ν) (depth : Nat) : List (Value ν) → Bytes
  | [] => []
  | [v] => heading depth [] ++ body N depth v ++ [0x20, 0x0A]
  | v :: v' :: xs => heading depth [] ++ body N depth v ++ [comma, 0x0A] ++ bodyValues N depth (v' :: xs)

/-- The members of an object, each on a line of its own. -/
def bodyFields (N : NumberFormat ν) (depth : Nat) : Fields ν → Bytes
  | [] => []
  | [(key, v)] => heading depth key ++ body N depth v ++ [0x20, 0x0A]
  | (key, v) :: field :: fields =>
    heading depth key ++ body N depth v ++ [comma, 0x0A] ++ bodyFields N depth (field :: fields)

end

mutual

theorem tag_eq (depth : Nat) (name : Bytes) :
    ∀ v : Value ν, tag N depth name v = heading depth name ++ body N depth v ++ [comma, 0x0A]
  | .null => rfl
  | .bool _ => rfl
  | .number _ => rfl
  | .string _ => rfl
  | .array xs => by
    by_cases hxs : xs = []
    · rw [hxs, tag, tagValues, List.append_nil, removeLastComma_open (by decide), body, bodyValues]
      simp
    · rw [tag, tagValues_eq (depth + 1) xs hxs (by simp), body]
      simp
  | .object fields => by
    by_cases hfields : fields = []
    · rw [hfields, tag, tagFields, List.append_nil, removeLastComma_open (by decide), body, bodyFields]
      simp
    · rw [tag, tagFields_eq (depth + 1) fields hfields (by simp), body]
      simp

/-- The elements as they stand after an opening bracket, with the last comma removed. -/
theorem tagValues_eq (depth : Nat) : ∀ (xs : List (Value ν)) {t : Bytes}, xs ≠ [] → t ≠ [] →
    removeLastComma (t ++ tagValues N depth xs) = t ++ bodyValues N depth xs
  | [], _, hxs, _ => absurd rfl hxs
  | [v], t, _, ht => by
    rw [tagValues, tagValues, bodyValues, tag_eq depth [] v, List.append_nil, ← List.append_assoc,
      removeLastComma_comma (List.append_ne_nil_of_left_ne_nil ht _), List.append_assoc]
  | v :: v' :: xs, t, _, ht => by
    rw [tagValues, bodyValues, tag_eq depth [] v, ← List.append_assoc,
      tagValues_eq depth (v' :: xs) (List.cons_ne_nil _ _) (List.append_ne_nil_of_left_ne_nil ht _), List.append_assoc]

theorem tagFields_eq (depth : Nat) : ∀ (fields : Fields ν) {t : Bytes}, fields ≠ [] → t ≠ [] →
    removeLastComma (t ++ tagFields N depth fields) = t ++ bodyFields N depth fields
  | [], _, hfields, _ => absurd rfl hfields
  | [(key, v)], t, _, ht => by
    rw [tagFields, tagFields, bodyFields, tag_eq depth key v, List.append_nil, ← List.append_assoc,
      removeLastComma_comma (List.append_ne_nil_of_left_ne_nil ht _), List.append_assoc]
  | (key, v) :: field :: fields, t, _, ht => by
    rw [tagFields, bodyFields, tag_eq depth key v, ← List.append_assoc,
      tagFields_eq depth (field :: fields) (List.cons_ne_nil _ _) (List.append_ne_nil_of_left_ne_nil ht _),
      List.append_assoc]

end

theorem json_eq (fields : Fields ν) : json N fields = body N 0 (.object fields) ++ [0x20, 0x0A] := by
  have htag : tag N 0 [] (.object fields) = body N 0 (.object fields) ++ [comma, 0x0A] := tag_eq 0 [] _
  rw [json, htag, removeLastComma_comma (by rw [body]; simp)]

/-! ### Texts -/

theorem blank_tabs (depth : Nat) : Blank (List.replicate depth 0x09) := fun b hb => by
  rw [List.eq_of_mem_replicate hb]
  rfl

theorem blank_cons {b : UInt8} (hb : isWhite b = true) (hw : Blank w) : Blank (b :: w) :=
  List.forall_mem_cons.mpr ⟨hb, hw⟩

mutual

theorem body_spells (depth : Nat) : ∀ {v : Value ν},
    Writable N v → Spells asciiUnit N.Spelled (.value v) (body N depth v)
  | .null, _ => .null
  | .bool true, _ => .true
  | .bool false, _ => .false
  | .number _, h => .number (N.spelled_write h)
  | .string s, _ => .string (escapeString_escapes s)
  | .array xs, h => by
    by_cases hxs : xs = []
    · rw [hxs]
      exact .emptyArray (blank_cons rfl (blank_tabs depth))
    · exact .array (bodyValues_spells (depth + 1) xs hxs h (w := [0x0A]) (by decide) (blank_tabs depth))
  | .object fields, h => by
    by_cases hfields : fields = []
    · rw [hfields]
      exact .emptyObject (blank_cons rfl (blank_tabs depth))
    · exact .object (bodyFields_spells (depth + 1) fields hfields h (w := [0x0A]) (by decide) (blank_tabs depth))

/-- White space may come before the elements, and after them. -/
theorem bodyValues_spells (depth : Nat) : ∀ (xs : List (Value ν)), xs ≠ [] → AllWritable N xs →
    ∀ {w w' : Bytes}, Blank w → Blank w' →
      Spells asciiUnit N.Spelled (.elements xs) (w ++ bodyValues N depth xs ++ w')
  | [], hxs, _, _, _, _, _ => absurd rfl hxs
  | [v], _, ⟨hv, _⟩, w, w', hw, hw' => by
    have hafter : Blank ([0x20, 0x0A] ++ w') := blank_cons rfl (blank_cons rfl hw')
    have helement := Spells.element (blank_append hw (blank_tabs depth)) (body_spells depth hv) hafter
    simpa [bodyValues, heading] using helement
  | v :: v' :: xs, _, ⟨hv, hxs⟩, w, w', hw, hw' => by
    have hmore := bodyValues_spells depth (v' :: xs) (List.cons_ne_nil _ _) hxs (w := [0x0A]) (by decide) hw'
    have helements := Spells.elements (blank_append hw (blank_tabs depth)) (body_spells depth hv)
      (List.forall_mem_nil _) hmore
    simpa [bodyValues, heading] using helements

theorem bodyFields_spells (depth : Nat) : ∀ (fields : Fields ν), fields ≠ [] → FieldsWritable N fields →
    ∀ {w w' : Bytes}, Blank w → Blank w' →
      Spells asciiUnit N.Spelled (.members fields) (w ++ bodyFields N depth fields ++ w')
  | [], hfields, _, _, _, _, _ => absurd rfl hfields
  | [(key, v)], _, ⟨hkey, hv, _⟩, w, w', hw, hw' => by
    have hafter : Blank ([0x20, 0x0A] ++ w') := blank_cons rfl (blank_cons rfl hw')
    have hspace : Blank [0x20] := by decide
    have hmember := Spells.member (blank_append hw (blank_tabs depth)) (escapeString_escapes key)
      (List.forall_mem_nil _) hspace (body_spells depth hv) hafter
    simpa [bodyFields, heading, hkey] using hmember
  | (key, v) :: field :: fields, _, ⟨hkey, hv, hfields⟩, w, w', hw, hw' => by
    have hmore := bodyFields_spells depth (field :: fields) (List.cons_ne_nil _ _) hfields (w := [0x0A])
      (by decide) hw'
    have hspace : Blank [0x20] := by decide
    have hmembers := Spells.members (blank_append hw (blank_tabs depth)) (escapeString_escapes key)
      (List.forall_mem_nil _) hspace (body_spells depth hv) (List.forall_mem_nil _) hmore
    simpa [bodyFields, heading, hkey] using hmembers

end

/-- What `Object::json` writes is JSON, in which bytes stand for themselves or are escaped as any reader of UTF-8
    takes them, and white space. -/
theorem json_spells {fields : Fields ν} (h : Writable N (.object fields)) :
    ∃ t w, json N fields = t ++ w ∧ Blank w ∧ Spells asciiUnit N.Spelled (.value (.object fields)) t :=
  ⟨_, _, json_eq fields, by decide, body_spells 0 h⟩

/-- Reading what has been written gives the same object, whatever stands around it. -/
theorem parse_json {fields : Fields ν} (hwritable : Writable N (.object fields))
    (hnormal : (Value.object fields).IsNormal) (hw : Blank w) (rest : Bytes) :
    parse N (ofText (w ++ json N fields ++ rest)) =
      (true, fields, ready ((body N 0 (.object fields)).reverse ++ w.reverse) (0x20 :: 0x0A :: rest)) := by
  have hunit (n : Nat) (bytes : Bytes) (h : asciiUnit n = some bytes) : byteUnit n = some bytes := by
    unfold asciiUnit at h
    split at h
    · exact h
    · cases h
  have hspells : Spells byteUnit N.Spelled (.value (.object fields)) (body N 0 (.object fields)) :=
    (body_spells 0 hwritable).mono hunit
  have hfields : SortedMap.storeAll [] (normalFields fields) = fields := by
    have hobject : (Value.object fields).normal = .object fields := hnormal.normal_eq
    exact Value.object.inj hobject
  have hparse := parse_object N hspells hw (0x20 :: 0x0A :: rest)
  rw [hfields] at hparse
  rw [json_eq, ← hparse]
  simp

theorem parse_json_escaped : parse integers (ofText ([0x20] ++ json integers [([0x61], .string [0x22, 0x0A, 0xC3]),
    ([0x62], .array [.null, .number (-3)])] ++ [0x5D])) =
      (true, [([0x61], .string [0x22, 0x0A, 0xC3]), ([0x62], .array [.null, .number (-3)])],
        ready ((body integers 0 (.object [([0x61], .string [0x22, 0x0A, 0xC3]),
          ([0x62], .array [.null, .number (-3)])])).reverse ++ [0x20]) [0x20, 0x0A, 0x5D]) := by
  refine parse_json ?_ ?_ (by decide) [0x5D]
  · exact ⟨by decide, trivial, by decide, ⟨trivial, show (-3 : Int).natAbs < 10 ^ 19 by decide, trivial⟩, trivial⟩
  · exact ⟨by decide, trivial, ⟨trivial, trivial, trivial⟩, trivial⟩

end Jsonxx
end MultiSlider
