import MultiSlider.Jsonxx.Parser

/-! What the parser makes of a JSON text: the value that the text stands for, with the stream at its end. -/

namespace MultiSlider
namespace Jsonxx

open JsonText IStream

universe u

/-- What the parser appends for the escape of a code unit. -/
def byteUnit (n : Nat) : Option Bytes := some [UInt8.ofNat n]

/-- What follows a value: at least one character, and it is no part of a number. -/
def Follows (rest : Bytes) : Prop := ∃ c r, rest = c :: r ∧ isNumeric c = false

variable {before rest w t s : Bytes} {c : UInt8}

/-! ### White space -/

theorem isSpace_of_isWhite {b : UInt8} (h : isWhite b = true) : isSpace b = true := by
  simp only [isWhite, Bool.or_eq_true, beq_iff_eq] at h
  rcases h with ((rfl | rfl) | rfl) | rfl <;> rfl

theorem not_isNumeric_of_isWhite {b : UInt8} (h : isWhite b = true) : isNumeric b = false := by
  simp only [isWhite, Bool.or_eq_true, beq_iff_eq] at h
  rcases h with ((rfl | rfl) | rfl) | rfl <;> rfl

theorem Follows.of_blank (hw : Blank w) (hc : isNumeric c = false) : Follows (w ++ c :: rest) := by
  cases w with
  | nil => exact ⟨c, rest, rfl, hc⟩
  | cons b w => exact ⟨b, w ++ c :: rest, rfl, not_isNumeric_of_isWhite (hw b List.mem_cons_self)⟩

theorem skipWhile_append {p : UInt8 → Bool} (h : ∀ b ∈ w, p b = true) :
    skipWhile p before (w ++ rest) = skipWhile p (w.reverse ++ before) rest := by
  induction w generalizing before with
  | nil => rfl
  | cons b w ih =>
    obtain ⟨hb, hw⟩ := List.forall_mem_cons.mp h
    rw [List.cons_append, skipWhile, if_pos hb, ih hw, List.reverse_cons, List.append_assoc, List.singleton_append]

theorem skipWhile_stop {p : UInt8 → Bool} (h : p c = false) :
    skipWhile p before (c :: rest) = ready before (c :: rest) := by
  rw [skipWhile, h]
  rfl

theorem good_ready : (ready before rest).good = true := rfl

/-- White space that comes first might as well have been read before. -/
theorem ws_skip (hw : Blank w) : (ready before (w ++ rest)).ws = (ready (w.reverse ++ before) rest).ws := by
  have hspace : ∀ b ∈ w, isSpace b = true := fun b hb => isSpace_of_isWhite (hw b hb)
  rw [ws, ws, if_pos good_ready, if_pos good_ready]
  dsimp only
  rw [skipWhile_append hspace]

theorem ws_stop (hc : isSpace c = false) : (ready before (c :: rest)).ws = ready before (c :: rest) := by
  rw [ws, if_pos good_ready]
  dsimp only
  rw [skipWhile_stop hc]
  rfl

/-! ### Tokens -/

theorem get_ready {ch : UInt8} : (ready before (c :: rest)).get ch = (c, ready (c :: before) rest) := rfl

theorem peek_ready : (ready before (c :: rest)).peek = (some c, ready before (c :: rest)) := rfl

theorem parseComment_ready (hc : c ≠ slash) :
    parseComment (ready before (c :: rest)) = (false, ready before (c :: rest)) := by
  rw [parseComment, if_neg Bool.false_ne_true, peek_ready]
  dsimp only
  rw [if_neg fun h => hc (Option.some.inj h)]

theorem matchLoop_hit {fuel : Nat} {ch : UInt8} {done pattern : Bytes} (hfuel : pattern.length ≤ fuel) :
    matchLoop fuel ch done pattern (ready before (pattern ++ rest)) =
      (true, ready (pattern.reverse ++ before) rest) := by
  induction pattern generalizing fuel ch done before with
  | nil => cases fuel <;> rfl
  | cons cur todo ih =>
    obtain ⟨fuel, rfl⟩ := Nat.exists_eq_add_of_le' (Nat.le_trans (Nat.le_add_left 1 todo.length) hfuel)
    rw [matchLoop, List.cons_append, if_pos good_ready, get_ready]
    dsimp only
    rw [if_neg (not_not.mpr rfl), ih (Nat.le_of_succ_le_succ hfuel), List.reverse_cons, List.append_assoc,
      List.singleton_append]

/-- Where the pattern comes next, it is read. -/
theorem matchPattern_hit {pattern : Bytes} (hc : isSpace c = false) :
    matchPattern (c :: pattern) (ready before (c :: pattern ++ rest)) =
      (true, ready ((c :: pattern).reverse ++ before) rest) := by
  rw [matchPattern, List.cons_append, ws_stop hc]
  refine matchLoop_hit ?_
  simp only [List.length_cons, List.length_append]
  omega

/-- Where another character comes next, nothing is read. -/
theorem matchPattern_miss {p : UInt8} {pattern : Bytes} (hc : isSpace c = false) (hp : c ≠ p) (hslash : c ≠ slash) :
    matchPattern (p :: pattern) (ready before (c :: rest)) = (false, ready before (c :: rest)) := by
  have hback : (ready (c :: before) rest).putback c = ready before (c :: rest) := if_pos rfl
  rw [matchPattern, ws_stop hc]
  dsimp only
  rw [matchLoop, if_pos good_ready, get_ready]
  dsimp only
  rw [if_pos hp, hback, parseComment_ready hslash]
  rfl

theorem matchPattern_skip {pattern : Bytes} (hw : Blank w) :
    matchPattern pattern (ready before (w ++ rest)) = matchPattern pattern (ready (w.reverse ++ before) rest) := by
  rw [matchPattern, ws_skip hw, ← matchPattern]

/-! ### Strings -/

theorem hexDigit_facts {b : UInt8} {d : Nat} (h : hexDigit b = some d) :
    isSpace b = false ∧ b ≠ 0x2B ∧ b ≠ 0x2D ∧ b ≠ 0x78 ∧ b ≠ 0x58 := by
  have hall : ∀ b : Fin 256, (hexDigit (UInt8.ofNat b)).isSome →
      isSpace (UInt8.ofNat b) = false ∧ UInt8.ofNat b ≠ 0x2B ∧ UInt8.ofNat b ≠ 0x2D ∧ UInt8.ofNat b ≠ 0x78 ∧
        UInt8.ofNat b ≠ 0x58 := by decide +kernel
  have hb := hall ⟨b.toNat, b.toNat_lt⟩
  rw [UInt8.ofNat_toNat, h] at hb
  exact hb rfl

/-- Four hexadecimal digits are read as the number they stand for. -/
theorem readHex_codeUnit {b₁ b₂ b₃ b₄ : UInt8} {n : Nat} (h : codeUnit b₁ b₂ b₃ b₄ = some n) :
    readHex [b₁, b₂, b₃, b₄] = some (n : Int) := by
  simp only [codeUnit, Option.bind_eq_bind, Option.bind_eq_some_iff, Option.pure_def, Option.some.injEq] at h
  obtain ⟨d₁, h₁, d₂, h₂, d₃, h₃, d₄, h₄, rfl⟩ := h
  obtain ⟨hspace, hplus, hminus, -⟩ := hexDigit_facts h₁
  obtain ⟨-, -, -, hx, hX⟩ := hexDigit_facts h₂
  have hdrop : [b₁, b₂, b₃, b₄].dropWhile isSpace = [b₁, b₂, b₃, b₄] := by
    rw [List.dropWhile_cons, hspace]
    rfl
  have hsign : readSign [b₁, b₂, b₃, b₄] = (1, [b₁, b₂, b₃, b₄]) := by
    rw [readSign, if_neg hplus, if_neg hminus]
  have hradix : skipRadix [b₁, b₂, b₃, b₄] = [b₁, b₂, b₃, b₄] := if_neg fun h => h.2.elim hx hX
  have htake : [b₁, b₂, b₃, b₄].takeWhile (fun b => (hexDigit b).isSome) = [b₁, b₂, b₃, b₄] := by
    simp [h₁, h₂, h₃, h₄]
  rw [readHex, hdrop, hsign]
  dsimp only
  rw [hradix, htake]
  simp [h₁, h₂, h₃, h₄]

theorem escape_short {b ch : UInt8} (h : shortEscape ch = some b) (s : IStream) :
    escape quote ch s = (ch, [b], s) := by
  unfold shortEscape at h
  split_ifs at h <;> subst_vars <;> cases h <;> rfl

theorem escape_unicode {b₁ b₂ b₃ b₄ : UInt8} {n : Nat} (h : codeUnit b₁ b₂ b₃ b₄ = some n) :
    escape quote 0x75 (ready before (b₁ :: b₂ :: b₃ :: b₄ :: rest)) =
      (b₄, [UInt8.ofNat n], ready (b₄ :: b₃ :: b₂ :: b₁ :: before) rest) := by
  have hfour : getFour 4 0x75 [] (ready before (b₁ :: b₂ :: b₃ :: b₄ :: rest)) =
      (b₄, [b₁, b₂, b₃, b₄], ready (b₄ :: b₃ :: b₂ :: b₁ :: before) rest) := rfl
  have hbyte : UInt8.ofNat ((n : Int) % 256).toNat = UInt8.ofNat n := by
    refine UInt8.toNat_inj.mp ?_
    rw [UInt8.toNat_ofNat', UInt8.toNat_ofNat']
    omega
  rw [escape, if_pos rfl, hfour]
  dsimp only
  rw [if_pos good_ready, readHex_codeUnit h, Option.map_some, Option.getD_some, hbyte]

theorem stringLoop_reads (h : Escapes byteUnit s t) {fuel : Nat} {ch : UInt8} {value : Bytes}
    (hfuel : t.length < fuel) :
    stringLoop quote fuel ch value (ready before (t ++ quote :: rest)) =
      (quote, value ++ s, ready (quote :: (t.reverse ++ before)) rest) := by
  induction h generalizing fuel ch value before with
  | nil =>
    obtain ⟨fuel, rfl⟩ := Nat.exists_eq_succ_of_ne_zero (Nat.ne_of_gt hfuel)
    rw [stringLoop, if_pos good_ready, List.nil_append, get_ready, List.append_nil]
    rfl
  | @plain b s t noQuote noBackslash _ ih =>
    obtain ⟨fuel, rfl⟩ := Nat.exists_eq_succ_of_ne_zero (Nat.ne_of_gt (Nat.zero_lt_of_lt hfuel))
    rw [stringLoop, if_pos good_ready, List.cons_append, get_ready]
    dsimp only
    rw [if_neg noQuote, if_neg noBackslash, ih (Nat.lt_of_succ_lt_succ hfuel)]
    simp
  | @short b c s t stands _ ih =>
    obtain ⟨fuel, rfl⟩ := Nat.exists_eq_succ_of_ne_zero (Nat.ne_of_gt (Nat.zero_lt_of_lt hfuel))
    rw [stringLoop, if_pos good_ready, List.cons_append, List.cons_append, get_ready]
    dsimp only
    rw [if_neg (by decide), if_pos rfl, get_ready]
    dsimp only
    -- The two bytes of the escape take one round and give one byte.
    rw [escape_short stands, ih (Nat.lt_of_succ_lt (Nat.lt_of_succ_lt_succ hfuel))]
    simp
  | @unicode b₁ b₂ b₃ b₄ n bytes s t digits stands _ ih =>
    obtain ⟨fuel, rfl⟩ := Nat.exists_eq_succ_of_ne_zero (Nat.ne_of_gt (Nat.zero_lt_of_lt hfuel))
    -- The six bytes of the escape take one round.
    have hlength : t.length < fuel := by
      simp only [List.length_cons] at hfuel
      omega
    cases Option.some.inj stands
    rw [stringLoop, if_pos good_ready, List.cons_append, List.cons_append, get_ready]
    dsimp only
    rw [if_neg (by decide), if_pos rfl, get_ready]
    dsimp only [List.cons_append]
    rw [escape_unicode digits]
    dsimp only
    rw [ih hlength]
    simp

theorem parseString_hit (h : Escapes byteUnit s t) :
    parseString (ready before (quote :: t ++ [quote] ++ rest)) =
      (some s, ready ((quote :: t ++ [quote]).reverse ++ before) rest) := by
  have hopen : matchPattern [quote] (ready before (quote :: (t ++ quote :: rest))) =
      (true, ready (quote :: before) (t ++ quote :: rest)) := matchPattern_hit rfl
  have hfuel : t.length < (t ++ quote :: rest).length + 1 := by
    rw [List.length_append]
    omega
  rw [List.append_assoc, List.singleton_append, List.cons_append, parseString, hopen]
  dsimp only
  rw [parseDelimited, stringLoop_reads h hfuel]
  simp

/-- A character with which no string begins. -/
theorem parseString_miss (hspace : isSpace c = false) (hquote : c ≠ quote) (happ : c ≠ apostrophe)
    (hslash : c ≠ slash) :
    parseString (ready before (c :: rest)) = (none, ready before (c :: rest)) := by
  rw [parseString, matchPattern_miss hspace hquote hslash]
  dsimp only
  rw [peek_ready]
  dsimp only
  rw [if_neg fun h => happ (Option.some.inj h)]

theorem parseString_skip (hw : Blank w) :
    parseString (ready before (w ++ rest)) = parseString (ready (w.reverse ++ before) rest) := by
  rw [parseString, matchPattern_skip hw, ← parseString]

/-! ### Numbers, booleans and null -/

theorem isNumeric_facts {b : UInt8} (h : isNumeric b = true) : isSpace b = false ∧ b ≠ quote ∧ b ≠ apostrophe ∧
    b ≠ slash ∧ b ≠ comma ∧ b ≠ closeBracket ∧ b ≠ closeBrace := by
  have hall : ∀ b : Fin 256, isNumeric (UInt8.ofNat b) = true → isSpace (UInt8.ofNat b) = false ∧
      UInt8.ofNat b ≠ quote ∧ UInt8.ofNat b ≠ apostrophe ∧ UInt8.ofNat b ≠ slash ∧ UInt8.ofNat b ≠ comma ∧
        UInt8.ofNat b ≠ closeBracket ∧ UInt8.ofNat b ≠ closeBrace := by decide +kernel
  have hb := hall ⟨b.toNat, b.toNat_lt⟩
  rw [UInt8.ofNat_toNat] at hb
  exact hb h

variable {ν : Type u} {N : NumberFormat ν}

theorem parseNumber_hit {x : ν} (h : N.Spelled x t) (hrest : Follows rest) :
    parseNumber N (ready before (t ++ rest)) = (some x, ready (t.reverse ++ before) rest) := by
  obtain ⟨b, r, rfl, hb⟩ := N.spelled_head h
  obtain ⟨c, r', rfl, hc⟩ := hrest
  have hws : (ready before (b :: r ++ c :: r')).ws = ready before (b :: r ++ c :: r') :=
    ws_stop (isNumeric_facts hb).1
  have hread : N.read (b :: r ++ c :: r') = some (x, c :: r') :=
    N.read_spelled h fun b' hb' => by
      cases hb'
      exact hc
  have htaken : (b :: r ++ c :: r').take ((b :: r ++ c :: r').length - (c :: r').length) = b :: r := by
    rw [List.length_append, Nat.add_sub_cancel, List.take_left]
  have htell : (ready before (b :: r ++ c :: r')).tellg =
      (some (before, b :: r ++ c :: r'), ready before (b :: r ++ c :: r')) := rfl
  rw [parseNumber, hws, htell]
  dsimp only
  rw [extract, hws]
  dsimp only
  rw [if_pos good_ready, hread]
  dsimp only
  rw [htaken]
  simp

theorem parseNumber_miss (hspace : isSpace c = false) (hc : isNumeric c = false) :
    parseNumber N (ready before (c :: rest)) = (none, ready before (c :: rest)) := by
  have hread : N.read (c :: rest) = none :=
    N.read_none fun b hb => by
      cases hb
      exact hc
  have htell : (ready before (c :: rest)).tellg = (some (before, c :: rest), ready before (c :: rest)) := rfl
  rw [parseNumber, ws_stop hspace, htell]
  dsimp only
  rw [extract, ws_stop hspace]
  dsimp only
  rw [if_pos good_ready, hread]
  rfl

theorem parseScalar_skip (hw : Blank w) :
    parseScalar N (ready before (w ++ rest)) = parseScalar N (ready (w.reverse ++ before) rest) := by
  rw [parseScalar, parseString_skip hw, ← parseScalar]

theorem parseScalar_string (h : Escapes byteUnit s t) :
    parseScalar N (ready before (quote :: t ++ [quote] ++ rest)) =
      (some (.string s), ready ((quote :: t ++ [quote]).reverse ++ before) rest) := by
  rw [parseScalar, parseString_hit h]

theorem parseScalar_number {x : ν} (h : N.Spelled x t) (hrest : Follows rest) :
    parseScalar N (ready before (t ++ rest)) = (some (.number x), ready (t.reverse ++ before) rest) := by
  have hnumber : parseNumber N (ready before (t ++ rest)) = (some x, ready (t.reverse ++ before) rest) :=
    parseNumber_hit h hrest
  obtain ⟨b, r, rfl, hb⟩ := N.spelled_head h
  obtain ⟨hspace, hquote, happ, hslash, -⟩ := isNumeric_facts hb
  rw [parseScalar, List.cons_append, parseString_miss hspace hquote happ hslash]
  dsimp only
  rw [← List.cons_append, hnumber]

/-- A character that begins neither a string nor a number. -/
def Unlike (c : UInt8) : Prop :=
  isSpace c = false ∧ c ≠ quote ∧ c ≠ apostrophe ∧ c ≠ slash ∧ isNumeric c = false

instance : Decidable (Unlike c) := inferInstanceAs (Decidable (_ ∧ _))

theorem parseScalar_of_bool {b : Bool} {s' : IStream} (hc : Unlike c)
    (hbool : parseBool (ready before (c :: rest)) = (some b, s')) :
    parseScalar N (ready before (c :: rest)) = (some (.bool b), s') := by
  obtain ⟨hspace, hquote, happ, hslash, hnumeric⟩ := hc
  rw [parseScalar, parseString_miss hspace hquote happ hslash]
  dsimp only
  rw [parseNumber_miss hspace hnumeric]
  dsimp only
  rw [hbool]

theorem parseBool_miss (hspace : isSpace c = false) (hslash : c ≠ slash) (htrue : c ≠ 0x74) (hfalse : c ≠ 0x66) :
    parseBool (ready before (c :: rest)) = (none, ready before (c :: rest)) := by
  rw [parseBool, trueText, matchPattern_miss hspace htrue hslash]
  dsimp only
  rw [falseText, matchPattern_miss hspace hfalse hslash]

theorem parseScalar_of_null {null : Bool} {s' : IStream} (hc : Unlike c) (htrue : c ≠ 0x74) (hfalse : c ≠ 0x66)
    (hnull : parseNull (ready before (c :: rest)) = (null, s')) :
    parseScalar N (ready before (c :: rest)) = (if null then some .null else none, s') := by
  have hbool : parseBool (ready before (c :: rest)) = (none, ready before (c :: rest)) :=
    parseBool_miss hc.1 hc.2.2.2.1 htrue hfalse
  obtain ⟨hspace, hquote, happ, hslash, hnumeric⟩ := hc
  rw [parseScalar, parseString_miss hspace hquote happ hslash]
  dsimp only
  rw [parseNumber_miss hspace hnumeric]
  dsimp only
  rw [hbool]
  dsimp only
  rw [hnull]
  cases null <;> rfl

theorem parseScalar_true : parseScalar N (ready before (trueText ++ rest)) =
    (some (.bool true), ready (trueText.reverse ++ before) rest) := by
  have hmatch : matchPattern trueText (ready before (trueText ++ rest)) =
      (true, ready (trueText.reverse ++ before) rest) := matchPattern_hit rfl
  have hbool : parseBool (ready before (trueText ++ rest)) = (some true, ready (trueText.reverse ++ before) rest) := by
    rw [parseBool, hmatch]
  exact parseScalar_of_bool (by decide) hbool

theorem parseScalar_false : parseScalar N (ready before (falseText ++ rest)) =
    (some (.bool false), ready (falseText.reverse ++ before) rest) := by
  have hmiss : matchPattern trueText (ready before (falseText ++ rest)) = (false, ready before (falseText ++ rest)) :=
    matchPattern_miss rfl (by decide) (by decide)
  have hmatch : matchPattern falseText (ready before (falseText ++ rest)) =
      (true, ready (falseText.reverse ++ before) rest) := matchPattern_hit rfl
  have hbool : parseBool (ready before (falseText ++ rest)) =
      (some false, ready (falseText.reverse ++ before) rest) := by
    rw [parseBool, hmiss]
    dsimp only
    rw [hmatch]
  exact parseScalar_of_bool (by decide) hbool

theorem parseScalar_null : parseScalar N (ready before (nullText ++ rest)) =
    (some .null, ready (nullText.reverse ++ before) rest) := by
  have hmatch : matchPattern nullText (ready before (nullText ++ rest)) =
      (true, ready (nullText.reverse ++ before) rest) := matchPattern_hit rfl
  have hnull : parseNull (ready before (nullText ++ rest)) = (true, ready (nullText.reverse ++ before) rest) := by
    rw [parseNull, hmatch]
  exact parseScalar_of_null (by decide) (by decide) (by decide) hnull

theorem parseNull_miss (hspace : isSpace c = false) (hslash : c ≠ slash) (hnull : c ≠ 0x6E) (hcomma : c ≠ comma) :
    parseNull (ready before (c :: rest)) = (false, ready before (c :: rest)) := by
  rw [parseNull, nullText, matchPattern_miss hspace hnull hslash]
  dsimp only
  rw [peek_ready]
  dsimp only
  rw [decide_eq_false fun h => hcomma (Option.some.inj h)]

/-- A bracket or a brace begins no scalar. -/
theorem parseScalar_miss (hc : Unlike c) (htrue : c ≠ 0x74) (hfalse : c ≠ 0x66) (hnull : c ≠ 0x6E)
    (hcomma : c ≠ comma) : parseScalar N (ready before (c :: rest)) = (none, ready before (c :: rest)) := by
  exact parseScalar_of_null hc htrue hfalse (parseNull_miss hc.1 hc.2.2.2.1 hnull hcomma)

/-! ### Arrays and objects -/

theorem parseValue_skip {fuel : Nat} (hw : Blank w) :
    parseValue N fuel (ready before (w ++ rest)) = parseValue N fuel (ready (w.reverse ++ before) rest) := by
  cases fuel with
  | zero => rfl
  | succ fuel => simp only [parseValue, parseScalar_skip hw]

theorem parseElements_skip {fuel : Nat} {xs : List (Value ν)} (hw : Blank w) :
    parseElements N fuel xs (ready before (w ++ rest)) =
      parseElements N fuel xs (ready (w.reverse ++ before) rest) := by
  cases fuel with
  | zero => rfl
  | succ fuel => simp only [parseElements, parseValue_skip hw]

theorem parseMembers_skip {fuel : Nat} {fields : Fields ν} (hw : Blank w) :
    parseMembers N fuel fields (ready before (w ++ rest)) =
      parseMembers N fuel fields (ready (w.reverse ++ before) rest) := by
  cases fuel with
  | zero => rfl
  | succ fuel => simp only [parseMembers, parseString_skip hw]

theorem parseObject_skip {fuel : Nat} (hw : Blank w) :
    parseObject N fuel (ready before (w ++ rest)) = parseObject N fuel (ready (w.reverse ++ before) rest) := by
  cases fuel with
  | zero => rfl
  | succ fuel => simp only [parseObject, matchPattern_skip hw]

/-- How the text of a phrase begins: after white space, with a character that ends nothing. -/
def Opens (t : Bytes) : Prop :=
  ∃ w c r, t = w ++ c :: r ∧ Blank w ∧ isSpace c = false ∧ c ≠ slash ∧ c ≠ comma ∧ c ≠ closeBracket ∧ c ≠ closeBrace

theorem Opens.of_head {r : Bytes} (hspace : isSpace c = false) (hslash : c ≠ slash) (hcomma : c ≠ comma)
    (hbracket : c ≠ closeBracket) (hbrace : c ≠ closeBrace) : Opens (c :: r) :=
  ⟨[], c, r, rfl, List.forall_mem_nil _, hspace, hslash, hcomma, hbracket, hbrace⟩

theorem Opens.append (h : Opens t) (more : Bytes) : Opens (t ++ more) := by
  obtain ⟨w, c, r, rfl, h⟩ := h
  exact ⟨w, c, r ++ more, List.append_assoc w (c :: r) more, h⟩

theorem Opens.blank (h : Opens t) (hw : Blank w) : Opens (w ++ t) := by
  obtain ⟨w', c, r, rfl, hw', h⟩ := h
  refine ⟨w ++ w', c, r, (List.append_assoc w w' (c :: r)).symm, fun b hb => ?_, h⟩
  exact (List.mem_append.mp hb).elim (hw b) (hw' b)

theorem opens_of_spells {unit : Nat → Option Bytes} {phrase : Phrase ν} (h : Spells unit N.Spelled phrase t) :
    Opens t := by
  induction h with
  | null | true | false | string | emptyArray | array | emptyObject | object =>
    exact .of_head rfl (by decide) (by decide) (by decide) (by decide)
  | number spelled =>
    obtain ⟨b, r, rfl, hb⟩ := N.spelled_head spelled
    obtain ⟨hspace, -, -, hslash, hcomma, hbracket, hbrace⟩ := isNumeric_facts hb
    exact .of_head hspace hslash hcomma hbracket hbrace
  | element blank _ _ ih => exact (ih.blank blank).append _
  | elements blank _ _ _ ih => exact ((ih.blank blank).append _).append _
  | member blank | members blank =>
    exact (((Opens.of_head rfl (by decide) (by decide) (by decide) (by decide)).blank blank).append _).append _

/-- What the parser makes of the text of a phrase where it comes next, given this much fuel. -/
def Reads (N : NumberFormat ν) : Phrase ν → Bytes → Prop
  | .value v, t => ∀ ⦃fuel before rest⦄, 3 * t.length ≤ fuel → Follows rest →
    parseValue N fuel (ready before (t ++ rest)) = some (some v.normal, ready (t.reverse ++ before) rest)
  | .elements vs, t => ∀ ⦃fuel before rest⦄ (xs : List (Value ν)), 3 * t.length < fuel →
    parseElements N fuel xs (ready before (t ++ closeBracket :: rest)) =
      some (xs ++ normalAll vs, ready (t.reverse ++ before) (closeBracket :: rest))
  | .members more, t => ∀ ⦃fuel before rest⦄ (fields : Fields ν), 3 * t.length < fuel →
    parseMembers N fuel fields (ready before (t ++ closeBrace :: rest)) =
      some (true, SortedMap.storeAll fields (normalFields more), ready (t.reverse ++ before) (closeBrace :: rest))

theorem reads_scalar {v : Value ν} (hlength : 0 < t.length) (h : ∀ ⦃before rest⦄, Follows rest →
    parseScalar N (ready before (t ++ rest)) = (some v.normal, ready (t.reverse ++ before) rest)) :
    Reads N (.value v) t := by
  intro fuel before rest hfuel hrest
  obtain ⟨fuel, rfl⟩ := Nat.exists_eq_succ_of_ne_zero (show fuel ≠ 0 by omega)
  rw [parseValue, h hrest]

/-- After a bracket or a brace that opens something, what comes next does not close it. -/
theorem matchPattern_opens {p : UInt8} (before rest : Bytes) (h : Opens t)
    (hp : p = closeBracket ∨ p = closeBrace ∨ p = comma) :
    ∃ w r, t = w ++ r ∧ Blank w ∧ matchPattern [p] (ready before (t ++ rest)) =
      (false, ready (w.reverse ++ before) (r ++ rest)) := by
  obtain ⟨w, c, r, rfl, hw, hspace, hslash, hcomma, hbracket, hbrace⟩ := h
  have hc : c ≠ p := by
    rcases hp with rfl | rfl | rfl
    · exact hbracket
    · exact hbrace
    · exact hcomma
  refine ⟨w, c :: r, rfl, hw, ?_⟩
  rw [List.append_assoc, matchPattern_skip hw, List.cons_append, matchPattern_miss hspace hc hslash]

theorem parseArray_empty {fuel : Nat} (hw : Blank w) :
    parseArray N (fuel + 1) (ready before (openBracket :: w ++ [closeBracket] ++ rest)) =
      some (some [], ready ((openBracket :: w ++ [closeBracket]).reverse ++ before) rest) := by
  have hopen : matchPattern [openBracket] (ready before (openBracket :: (w ++ closeBracket :: rest))) =
      (true, ready (openBracket :: before) (w ++ closeBracket :: rest)) := matchPattern_hit rfl
  have hclose : matchPattern [closeBracket] (ready (w.reverse ++ openBracket :: before) (closeBracket :: rest)) =
      (true, ready (closeBracket :: (w.reverse ++ openBracket :: before)) rest) := matchPattern_hit rfl
  rw [List.append_assoc, List.singleton_append, List.cons_append, parseArray, hopen]
  dsimp only
  rw [matchPattern_skip hw, hclose]
  simp

theorem parseArray_elements {vs : List (Value ν)} {fuel : Nat} (h : Reads N (.elements vs) t) (hopens : Opens t)
    (hfuel : 3 * t.length < fuel) :
    parseArray N (fuel + 1) (ready before (openBracket :: t ++ [closeBracket] ++ rest)) =
      some (some (normalAll vs), ready ((openBracket :: t ++ [closeBracket]).reverse ++ before) rest) := by
  have hopen : matchPattern [openBracket] (ready before (openBracket :: (t ++ closeBracket :: rest))) =
      (true, ready (openBracket :: before) (t ++ closeBracket :: rest)) := matchPattern_hit rfl
  have hclose : matchPattern [closeBracket] (ready (t.reverse ++ openBracket :: before) (closeBracket :: rest)) =
      (true, ready (closeBracket :: (t.reverse ++ openBracket :: before)) rest) := matchPattern_hit rfl
  have hreads := @h _ (openBracket :: before) rest [] hfuel
  obtain ⟨w, r, rfl, hw, hnot⟩ := matchPattern_opens (openBracket :: before) (closeBracket :: rest) hopens (.inl rfl)
  rw [List.append_assoc, parseElements_skip hw] at hreads
  rw [List.append_assoc, List.singleton_append, List.cons_append, parseArray, hopen]
  dsimp only
  rw [hnot]
  dsimp only
  rw [hreads, Option.map_some]
  dsimp only
  rw [hclose]
  simp

theorem parseObject_empty {fuel : Nat} (hw : Blank w) :
    parseObject N (fuel + 1) (ready before (openBrace :: w ++ [closeBrace] ++ rest)) =
      some (true, [], ready ((openBrace :: w ++ [closeBrace]).reverse ++ before) rest) := by
  have hopen : matchPattern [openBrace] (ready before (openBrace :: (w ++ closeBrace :: rest))) =
      (true, ready (openBrace :: before) (w ++ closeBrace :: rest)) := matchPattern_hit rfl
  have hclose : matchPattern [closeBrace] (ready (w.reverse ++ openBrace :: before) (closeBrace :: rest)) =
      (true, ready (closeBrace :: (w.reverse ++ openBrace :: before)) rest) := matchPattern_hit rfl
  rw [List.append_assoc, List.singleton_append, List.cons_append, parseObject, hopen]
  dsimp only
  rw [matchPattern_skip hw, hclose]
  simp

theorem parseObject_members {fields : Fields ν} {fuel : Nat} (h : Reads N (.members fields) t) (hopens : Opens t)
    (hfuel : 3 * t.length < fuel) :
    parseObject N (fuel + 1) (ready before (openBrace :: t ++ [closeBrace] ++ rest)) =
      some (true, SortedMap.storeAll [] (normalFields fields),
        ready ((openBrace :: t ++ [closeBrace]).reverse ++ before) rest) := by
  have hopen : matchPattern [openBrace] (ready before (openBrace :: (t ++ closeBrace :: rest))) =
      (true, ready (openBrace :: before) (t ++ closeBrace :: rest)) := matchPattern_hit rfl
  have hclose : matchPattern [closeBrace] (ready (t.reverse ++ openBrace :: before) (closeBrace :: rest)) =
      (true, ready (closeBrace :: (t.reverse ++ openBrace :: before)) rest) := matchPattern_hit rfl
  have hreads := @h _ (openBrace :: before) rest [] hfuel
  obtain ⟨w, r, rfl, hw, hnot⟩ :=
    matchPattern_opens (openBrace :: before) (closeBrace :: rest) hopens (.inr (.inl rfl))
  rw [List.append_assoc, parseMembers_skip hw] at hreads
  rw [List.append_assoc, List.singleton_append, List.cons_append, parseObject, hopen]
  dsimp only
  rw [hnot]
  dsimp only
  rw [hreads, Option.map_some]
  dsimp only
  rw [if_pos rfl, hclose]
  simp

theorem parseValue_array {vs : List (Value ν)} {fuel : Nat} {s' : IStream}
    (h : parseArray N fuel (ready before (openBracket :: rest)) = some (some vs, s')) :
    parseValue N (fuel + 1) (ready before (openBracket :: rest)) = some (some (.array vs), s') := by
  rw [parseValue, parseScalar_miss (by decide) (by decide) (by decide) (by decide) (by decide)]
  dsimp only
  rw [peek_ready]
  dsimp only
  rw [if_pos rfl, h]

theorem parseValue_object {fields : Fields ν} {fuel : Nat} {s' : IStream}
    (h : parseObject N fuel (ready before (openBrace :: rest)) = some (true, fields, s')) :
    parseValue N (fuel + 1) (ready before (openBrace :: rest)) = some (some (.object fields), s') := by
  rw [parseValue, parseScalar_miss (by decide) (by decide) (by decide) (by decide) (by decide)]
  dsimp only
  rw [peek_ready]
  dsimp only
  rw [if_neg (by decide), h, Option.map_some]
  rfl

/-- What follows a value inside an array or an object: white space, and then the end or a comma. -/
theorem parseElements_last {v : Value ν} {w w' : Bytes} {fuel : Nat} {xs : List (Value ν)} (h : Reads N (.value v) t)
    (hw : Blank w) (hw' : Blank w') (hfuel : 3 * t.length ≤ fuel) :
    parseElements N (fuel + 1) xs (ready before (w ++ t ++ w' ++ closeBracket :: rest)) =
      some (xs ++ [v.normal], ready ((w ++ t ++ w').reverse ++ before) (closeBracket :: rest)) := by
  have hvalue := @h _ (w.reverse ++ before) (w' ++ closeBracket :: rest) hfuel (.of_blank hw' rfl)
  have hcomma : matchPattern [comma] (ready (t.reverse ++ (w.reverse ++ before)) (w' ++ closeBracket :: rest)) =
      (false, ready (w'.reverse ++ (t.reverse ++ (w.reverse ++ before))) (closeBracket :: rest)) := by
    rw [matchPattern_skip hw', matchPattern_miss rfl (by decide) (by decide)]
  rw [List.append_assoc, List.append_assoc, parseElements_skip hw, parseElements, hvalue]
  dsimp only
  rw [hcomma]
  simp

theorem parseElements_more {v : Value ν} {w w' : Bytes} {fuel : Nat} {xs : List (Value ν)} (h : Reads N (.value v) t)
    (hw : Blank w) (hw' : Blank w') (hfuel : 3 * t.length ≤ fuel) :
    parseElements N (fuel + 1) xs (ready before (w ++ t ++ w' ++ comma :: rest)) =
      parseElements N fuel (xs ++ [v.normal]) (ready ((w ++ t ++ w' ++ [comma]).reverse ++ before) rest) := by
  have hvalue := @h _ (w.reverse ++ before) (w' ++ comma :: rest) hfuel (.of_blank hw' rfl)
  have hcomma : matchPattern [comma] (ready (t.reverse ++ (w.reverse ++ before)) (w' ++ comma :: rest)) =
      (true, ready (comma :: (w'.reverse ++ (t.reverse ++ (w.reverse ++ before)))) rest) :=
    (matchPattern_skip hw').trans (matchPattern_hit rfl)
  rw [List.append_assoc, List.append_assoc, parseElements_skip hw, parseElements, hvalue]
  dsimp only
  rw [hcomma]
  simp

/-- One member: what `parseMembers` does up to the end of its value. -/
theorem parseMembers_value {v : Value ν} {key k w w₁ w₂ : Bytes} {fuel : Nat} (before rest : Bytes) (fields : Fields ν)
    (h : Reads N (.value v) t) (hkey : Escapes byteUnit key k) (hw : Blank w) (hw₁ : Blank w₁) (hw₂ : Blank w₂)
    (hfuel : 3 * t.length ≤ fuel) (hrest : Follows rest) :
    parseMembers N (fuel + 1) fields
        (ready before (w ++ (quote :: k ++ [quote]) ++ w₁ ++ colon :: (w₂ ++ t ++ rest))) =
      match matchPattern [comma]
        (ready ((w ++ (quote :: k ++ [quote]) ++ w₁ ++ colon :: (w₂ ++ t)).reverse ++ before) rest) with
      | (true, s) => parseMembers N fuel (SortedMap.store key v.normal fields) s
      | (false, s) => some (true, SortedMap.store key v.normal fields, s) := by
  have hstring : parseString (ready (w.reverse ++ before)
      (quote :: k ++ [quote] ++ (w₁ ++ colon :: (w₂ ++ t ++ rest)))) =
      (some key, ready ((quote :: k ++ [quote]).reverse ++ (w.reverse ++ before))
        (w₁ ++ colon :: (w₂ ++ t ++ rest))) := parseString_hit hkey
  have hcolon : matchPattern [colon] (ready ((quote :: k ++ [quote]).reverse ++ (w.reverse ++ before))
      (w₁ ++ colon :: (w₂ ++ t ++ rest))) =
      (true, ready (colon :: (w₁.reverse ++ ((quote :: k ++ [quote]).reverse ++ (w.reverse ++ before))))
        (w₂ ++ t ++ rest)) := (matchPattern_skip hw₁).trans (matchPattern_hit rfl)
  have hvalue := @h _ (w₂.reverse ++ (colon :: (w₁.reverse ++ ((quote :: k ++ [quote]).reverse ++
    (w.reverse ++ before))))) rest hfuel hrest
  have hbefore : t.reverse ++ (w₂.reverse ++ (colon :: (w₁.reverse ++ ((quote :: k ++ [quote]).reverse ++
      (w.reverse ++ before))))) =
      (w ++ (quote :: k ++ [quote]) ++ w₁ ++ colon :: (w₂ ++ t)).reverse ++ before := by simp
  rw [hbefore] at hvalue
  rw [List.append_assoc, List.append_assoc, parseMembers_skip hw, parseMembers, hstring]
  dsimp only
  rw [hcolon]
  dsimp only
  rw [List.append_assoc, parseValue_skip hw₂]
  exact hvalue ▸ rfl

theorem reads_of_spells {phrase : Phrase ν} (h : Spells byteUnit N.Spelled phrase t) : Reads N phrase t := by
  induction h with
  | null => exact reads_scalar (by decide) fun _ _ _ => parseScalar_null
  | true => exact reads_scalar (by decide) fun _ _ _ => parseScalar_true
  | false => exact reads_scalar (by decide) fun _ _ _ => parseScalar_false
  | number spelled =>
    obtain ⟨b, r, rfl, -⟩ := N.spelled_head spelled
    exact reads_scalar (Nat.zero_lt_succ _) fun _ _ hrest => parseScalar_number spelled hrest
  | string escaped => exact reads_scalar (Nat.zero_lt_succ _) fun _ _ _ => parseScalar_string escaped
  | emptyArray blank =>
    intro fuel before rest hfuel _
    obtain ⟨fuel, rfl⟩ := Nat.exists_eq_add_of_le' (show 2 ≤ fuel by simp at hfuel; omega)
    exact parseValue_array (parseArray_empty blank)
  | array inner ih =>
    intro fuel before rest hfuel _
    simp only [List.length_cons, List.length_append, List.length_nil] at hfuel
    obtain ⟨fuel, rfl⟩ := Nat.exists_eq_add_of_le' (show 2 ≤ fuel by omega)
    exact parseValue_array (parseArray_elements ih (opens_of_spells inner) (by omega))
  | emptyObject blank =>
    intro fuel before rest hfuel _
    obtain ⟨fuel, rfl⟩ := Nat.exists_eq_add_of_le' (show 2 ≤ fuel by simp at hfuel; omega)
    exact parseValue_object (parseObject_empty blank)
  | object inner ih =>
    intro fuel before rest hfuel _
    simp only [List.length_cons, List.length_append, List.length_nil] at hfuel
    obtain ⟨fuel, rfl⟩ := Nat.exists_eq_add_of_le' (show 2 ≤ fuel by omega)
    exact parseValue_object (parseObject_members ih (opens_of_spells inner) (by omega))
  | element blank inner blank' ih =>
    intro fuel before rest xs hfuel
    simp only [List.length_append] at hfuel
    obtain ⟨fuel, rfl⟩ := Nat.exists_eq_add_of_le' (show 1 ≤ fuel by omega)
    exact parseElements_last ih blank blank' (by omega)
  | elements blank inner blank' more ih ihMore =>
    intro fuel before rest xs hfuel
    simp only [List.length_append, List.length_cons] at hfuel
    obtain ⟨fuel, rfl⟩ := Nat.exists_eq_add_of_le' (show 1 ≤ fuel by omega)
    -- One value and its comma are read, the others by the hypothesis for the rest.
    rw [List.append_assoc, List.cons_append, parseElements_more ih blank blank' (by omega), ihMore _ (by omega)]
    simp [normalAll]
  | @member key v w k w₁ w₂ t w' blank escaped blank₁ blank₂ _ blank' ih =>
    intro fuel before rest fields hfuel
    simp only [List.length_append, List.length_cons] at hfuel
    obtain ⟨fuel, rfl⟩ := Nat.exists_eq_add_of_le' (show 1 ≤ fuel by omega)
    -- After the last member there is no comma but the closing brace, and the loop ends.
    have hcomma (before : Bytes) : matchPattern [comma] (ready before (w' ++ closeBrace :: rest)) =
        (false, ready (w'.reverse ++ before) (closeBrace :: rest)) :=
      (matchPattern_skip blank').trans (matchPattern_miss rfl (by decide) (by decide))
    have hmember := parseMembers_value before (w' ++ closeBrace :: rest) fields ih escaped blank blank₁ blank₂
      (show 3 * t.length ≤ fuel by omega) (.of_blank blank' rfl)
    rw [hcomma] at hmember
    simp only [List.append_assoc, List.cons_append] at hmember ⊢
    rw [hmember]
    simp [normalFields]
  | @members key v more w k w₁ w₂ t w' t' blank escaped blank₁ blank₂ _ blank' _ ih ihMore =>
    intro fuel before rest fields hfuel
    simp only [List.length_append, List.length_cons] at hfuel
    obtain ⟨fuel, rfl⟩ := Nat.exists_eq_add_of_le' (show 1 ≤ fuel by omega)
    -- The comma after a member has the loop go on with the next one.
    have hcomma (before : Bytes) : matchPattern [comma] (ready before (w' ++ comma :: (t' ++ closeBrace :: rest))) =
        (true, ready (comma :: (w'.reverse ++ before)) (t' ++ closeBrace :: rest)) :=
      (matchPattern_skip blank').trans (matchPattern_hit rfl)
    have hmember := parseMembers_value before (w' ++ comma :: (t' ++ closeBrace :: rest)) fields ih escaped blank
      blank₁ blank₂ (show 3 * t.length ≤ fuel by omega) (.of_blank blank' rfl)
    rw [hcomma] at hmember
    simp only [List.append_assoc, List.cons_append] at hmember ⊢
    rw [hmember, ihMore _ (by omega)]
    simp [normalFields]

end Jsonxx
end MultiSlider
