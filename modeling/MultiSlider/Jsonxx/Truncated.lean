import MultiSlider.Jsonxx.Integers
import MultiSlider.Jsonxx.Totality

/-! A text that breaks off before its end. The parser comes to the end of the input, or stops before the beginning of
    a number, and from there on nothing is matched. -/

namespace MultiSlider
namespace Jsonxx

open JsonText IStream

universe u

/-- Nothing but white space is left, or the stream has failed. -/
def Over (s : IStream) : Prop := s.fail = true ∨ Blank s.rest

/-- Nothing is left to be matched: all is over, or the stream stands before what should have been a number. -/
def Dead (s : IStream) : Prop := Over s ∨ ∃ before b rest, s = ready before (b :: rest) ∧ isNumeric b = true

variable {before rest w t p : Bytes} {s s' : IStream} {c : UInt8}

theorem Over.of_blank (h : Blank w) : Over (ready before w) := .inr h

theorem Over.of_nil : Over (ready before []) := .inr (List.forall_mem_nil _)

theorem Over.dead (h : Over s) : Dead s := .inl h

theorem Dead.of_fail (h : s.fail = true) : Dead s := .inl (.inl h)

/-! ### Where all is over -/

theorem not_good (h : s.fail = true) : ¬s.good = true := by
  rw [not_good_of_fail h]
  exact Bool.false_ne_true

theorem peek_dead (h : s.good = false) : s.peek = (none, { s with fail := true }) := by
  rw [peek, h]
  rfl

theorem skipWhile_all {q : UInt8 → Bool} (h : ∀ b ∈ w, q b = true) :
    skipWhile q before w = ready (w.reverse ++ before) [] := by
  have hskip : skipWhile q before (w ++ []) = skipWhile q (w.reverse ++ before) [] := skipWhile_append h
  rw [List.append_nil] at hskip
  rw [hskip]
  rfl

/-- White space is skipped to the end. -/
theorem Over.ws (h : Over s) : s.ws.good = false ∧ Over s.ws := by
  by_cases hgood : s.good = true
  · obtain ⟨hfail⟩ | hblank := h
    · exact absurd hgood (not_good hfail)
    · have hskip : skipWhile isSpace s.before s.rest = ready (s.rest.reverse ++ s.before) [] :=
        skipWhile_all fun b hb => isSpace_of_isWhite (hblank b hb)
      rw [IStream.ws, if_pos hgood, hskip]
      exact ⟨rfl, .inr (List.forall_mem_nil _)⟩
  · rw [IStream.ws, if_neg hgood]
    exact ⟨not_good_of_fail rfl, .inl rfl⟩

theorem Over.matchPattern {pattern : Bytes} (hpattern : pattern ≠ []) (h : Over s) :
    ∃ s', matchPattern pattern s = (false, s') ∧ s'.good = false ∧ Over s' := by
  obtain ⟨hgood, hover⟩ := h.ws
  refine ⟨s.ws, ?_, hgood, hover⟩
  rw [Jsonxx.matchPattern, matchLoop_dead hgood, List.isEmpty_eq_false_iff.mpr hpattern]

theorem fail_ws (h : s.fail = true) : s.ws.fail = true := by
  rw [IStream.ws, if_neg (not_good h)]

theorem fail_matchPattern {pattern : Bytes} (hpattern : pattern ≠ []) (h : s.fail = true) :
    ∃ s', matchPattern pattern s = (false, s') ∧ s'.fail = true := by
  refine ⟨s.ws, ?_, fail_ws h⟩
  rw [matchPattern, matchLoop_dead (not_good_of_fail (fail_ws h)), List.isEmpty_eq_false_iff.mpr hpattern]

theorem Over.parseString (h : Over s) : ∃ s', parseString s = (none, s') ∧ s'.fail = true := by
  obtain ⟨s₁, hmatch, hgood, -⟩ := h.matchPattern (List.cons_ne_nil quote [])
  refine ⟨{ s₁ with fail := true }, ?_, rfl⟩
  rw [Jsonxx.parseString, hmatch]
  dsimp only
  rw [peek_dead hgood]
  rfl

variable {ν : Type u} {N : NumberFormat ν}

theorem fail_tellg (h : s.fail = true) : ∃ s', s.tellg = (none, s') ∧ s'.fail = true := by
  refine ⟨{ s with fail := true }, ?_, rfl⟩
  rw [tellg, h]
  rfl

theorem fail_extract (h : s.fail = true) : ∃ s', extract N s = (none, s') ∧ s'.fail = true := by
  refine ⟨{ s.ws with fail := true }, ?_, rfl⟩
  rw [extract]
  dsimp only
  rw [if_neg (not_good (fail_ws h))]

/-- The roll back has no position to go to. -/
theorem fail_parseNumber (h : s.fail = true) : ∃ s', parseNumber N s = (none, s') ∧ s'.fail = true := by
  obtain ⟨s₁, htell, h₁⟩ := fail_tellg (fail_ws h)
  obtain ⟨s₂, hextract, -⟩ := fail_extract (N := N) h₁
  refine ⟨s₂.clear.seekg none, ?_, rfl⟩
  rw [parseNumber, htell]
  dsimp only
  rw [hextract]

theorem fail_parseBool (h : s.fail = true) : ∃ s', parseBool s = (none, s') ∧ s'.fail = true := by
  obtain ⟨s₁, htrue, h₁⟩ := fail_matchPattern (List.cons_ne_nil 0x74 [0x72, 0x75, 0x65]) h
  obtain ⟨s₂, hfalse, h₂⟩ := fail_matchPattern (List.cons_ne_nil 0x66 [0x61, 0x6C, 0x73, 0x65]) h₁
  refine ⟨s₂, ?_, h₂⟩
  rw [parseBool, trueText, htrue]
  dsimp only
  rw [falseText, hfalse]

theorem fail_parseNull (h : s.fail = true) : ∃ s', parseNull s = (false, s') ∧ s'.fail = true := by
  obtain ⟨s₁, hnull, h₁⟩ := fail_matchPattern (List.cons_ne_nil 0x6E [0x75, 0x6C, 0x6C]) h
  refine ⟨{ s₁ with fail := true }, ?_, rfl⟩
  rw [parseNull, nullText, hnull]
  dsimp only
  rw [peek_dead (not_good_of_fail h₁)]
  rfl

/-- Once `parse_string` has made the stream fail, nothing else is read of it. -/
theorem parseScalar_of_fail (hstring : parseString s = (none, s')) (h : s'.fail = true) :
    ∃ s₁, parseScalar N s = (none, s₁) ∧ s₁.fail = true := by
  obtain ⟨s₁, hnumber, h₁⟩ := fail_parseNumber (N := N) h
  obtain ⟨s₂, hbool, h₂⟩ := fail_parseBool h₁
  obtain ⟨s₃, hnull, h₃⟩ := fail_parseNull h₂
  refine ⟨s₃, ?_, h₃⟩
  rw [parseScalar, hstring]
  dsimp only
  rw [hnumber]
  dsimp only
  rw [hbool]
  dsimp only
  rw [hnull]

theorem Over.parseScalar (h : Over s) : ∃ s', parseScalar N s = (none, s') ∧ s'.fail = true := by
  obtain ⟨s₁, hstring, h₁⟩ := h.parseString
  exact parseScalar_of_fail hstring h₁

/-! ### Where nothing is left to be matched -/

theorem Dead.matchPattern (h : Dead s) (hc : isNumeric c = false) :
    ∃ s', matchPattern [c] s = (false, s') ∧ Dead s' := by
  rcases h with hover | ⟨before, b, rest, rfl, hb⟩
  · obtain ⟨s', hmatch, -, h'⟩ := hover.matchPattern (List.cons_ne_nil c [])
    exact ⟨s', hmatch, h'.dead⟩
  · obtain ⟨hspace, -, -, hslash, -⟩ := isNumeric_facts hb
    have hne : b ≠ c := fun heq => by
      rw [heq, hc] at hb
      cases hb
    exact ⟨_, matchPattern_miss hspace hne hslash, .inr ⟨before, b, rest, rfl, hb⟩⟩

theorem Dead.peek (h : Dead s) : Dead s.peek.2 := by
  rcases h with (hfail | hblank) | ⟨before, b, rest, rfl, hb⟩
  · rw [peek_dead (not_good_of_fail hfail)]
    exact Dead.of_fail rfl
  · refine (Over.dead (.inr ?_))
    obtain ⟨p, hrest, -⟩ := peek_onward (s := s)
    intro b hb
    refine hblank b ?_
    rw [hrest]
    exact List.mem_append_right p hb
  · exact .inr ⟨before, b, rest, rfl, hb⟩

theorem peek_some {b : UInt8} (h : s.peek.1 = some b) : s.fail = false ∧ ∃ rest, s.rest = b :: rest := by
  by_cases hgood : s.good = true
  · rw [IStream.peek, if_pos hgood] at h
    split at h
    · next b' rest hrest =>
      cases h
      exact ⟨(good_iff.mp hgood).2, rest, hrest⟩
    · cases h
  · rw [IStream.peek, if_neg hgood] at h
    cases h

theorem Dead.peek_ne (h : Dead s) (hc : isNumeric c = false) (hblank : isWhite c = false) : s.peek.1 ≠ some c := by
  intro heq
  obtain ⟨hgood, rest, hrest⟩ := peek_some heq
  rcases h with (hfail | hall) | ⟨before, b, rest', rfl, hb⟩
  · rw [hgood] at hfail
    cases hfail
  · rw [hall c (hrest ▸ List.mem_cons_self)] at hblank
    cases hblank
  · cases hrest
    rw [hc] at hb
    cases hb

theorem Dead.parseObject {fuel : Nat} {r : Bool × Fields ν × IStream} (h : Dead s)
    (hr : parseObject N fuel s = some r) : r.1 = false ∧ Dead r.2.2 := by
  cases fuel with
  | zero => cases hr
  | succ fuel =>
    obtain ⟨s', hmatch, h'⟩ := h.matchPattern (c := openBrace) rfl
    rw [Jsonxx.parseObject, hmatch] at hr
    cases hr
    exact ⟨rfl, h'⟩

/-- A value of which `parse_value` finds neither a scalar nor more. -/
theorem Dead.parseValue {fuel : Nat} {o : Option (Value ν)} {r : Option (Value ν) × IStream}
    (hscalar : parseScalar N s = (o, s')) (h : Dead s') (hr : parseValue N fuel s = some r) : Dead r.2 := by
  cases fuel with
  | zero => cases hr
  | succ fuel =>
    rw [Jsonxx.parseValue, hscalar] at hr
    cases o with
    | some v =>
      cases hr
      exact h
    | none =>
      dsimp only at hr
      rw [if_neg (h.peek_ne rfl rfl)] at hr
      obtain ⟨⟨ok, fields, s₁⟩, hobject, rfl⟩ := Option.map_eq_some_iff.mp hr
      exact (h.peek.parseObject hobject).2

theorem Over.parseValue {fuel : Nat} {r : Option (Value ν) × IStream} (h : Over s)
    (hr : parseValue N fuel s = some r) : Dead r.2 := by
  obtain ⟨s', hscalar, hfail⟩ := h.parseScalar (N := N)
  exact Dead.parseValue hscalar (Dead.of_fail hfail) hr

theorem Over.parseMembers {fuel : Nat} {fields : Fields ν} {r : Bool × Fields ν × IStream} (h : Over s)
    (hr : parseMembers N fuel fields s = some r) : Dead r.2.2 := by
  cases fuel with
  | zero => cases hr
  | succ fuel =>
    obtain ⟨s', hstring, hfail⟩ := h.parseString
    rw [Jsonxx.parseMembers, hstring] at hr
    cases hr
    exact (Dead.of_fail hfail).peek

/-- What the loop does after a value that leaves nothing to be matched. -/
theorem parseElements_dead {fuel : Nat} {xs : List (Value ν)} {r : List (Value ν) × IStream}
    (hvalue : ∀ r, parseValue N fuel s = some r → Dead r.2) (hr : parseElements N (fuel + 1) xs s = some r) :
    Dead r.2 := by
  rw [parseElements] at hr
  split at hr
  · cases hr
  · next s₁ hv =>
    cases hr
    exact hvalue _ hv
  · next v s₁ hv =>
    obtain ⟨s₂, hmatch, h₂⟩ := (hvalue _ hv).matchPattern (c := comma) rfl
    dsimp only at hmatch
    rw [hmatch] at hr
    cases hr
    exact h₂

/-! ### Pieces of a text -/

theorem prefix_append_cases {l l' : Bytes} (h : p <+: l ++ l') : p <+: l ∨ ∃ q, p = l ++ q ∧ q <+: l' := by
  rcases List.prefix_or_prefix_of_prefix h (List.prefix_append l l') with hp | ⟨q, rfl⟩
  · exact .inl hp
  · exact .inr ⟨q, rfl, (List.prefix_append_right_inj l).mp h⟩

theorem blank_start (hw : Blank w) (h : p <+: w) : Blank p := fun b hb => hw b (h.subset hb)

theorem blank_append (hw : Blank w) (hp : Blank p) : Blank (w ++ p) := fun b hb =>
  (List.mem_append.mp hb).elim (hw b) (hp b)

/-! ### Scalars that break off -/

/-- Where the input ends inside the pattern, the stream fails, whether or not the pattern is said to be matched. -/
theorem matchLoop_cut {fuel : Nat} {ch cur : UInt8} {done todo : Bytes} (hfuel : p.length < fuel) :
    (matchLoop fuel ch done (p ++ cur :: todo) (ready before p)).2.fail = true := by
  induction p generalizing fuel ch done before with
  | nil =>
    obtain ⟨fuel, rfl⟩ := Nat.exists_eq_succ_of_ne_zero (Nat.ne_of_gt hfuel)
    obtain ⟨s₁, hget, hfail⟩ : ∃ s₁, (ready before []).get ch = (ch, s₁) ∧ s₁.fail = true := ⟨_, rfl, rfl⟩
    rw [List.nil_append, matchLoop, if_pos good_ready, hget]
    dsimp only
    split
    · obtain ⟨hfail', -⟩ := putback_fail ch hfail
      rcases parseComment_cases (s₁.putback ch) with ⟨_, _, _, heq, -⟩ | ⟨s₂, hcomment, -, hfail₂⟩
      · rw [heq] at hfail'
        cases hfail'
      · rw [hcomment]
        have hback {done : Bytes} {s : IStream} (h : s.fail = true) : (done.foldl putback s).fail = true := by
          induction done generalizing s with
          | nil => exact h
          | cons b done ih => exact ih (putback_fail b h).1
        exact hback (hfail₂ hfail')
    · rw [matchLoop_dead (not_good_of_fail hfail)]
      exact hfail
  | cons b p ih =>
    obtain ⟨fuel, rfl⟩ := Nat.exists_eq_succ_of_ne_zero (Nat.ne_of_gt (Nat.zero_lt_of_lt hfuel))
    rw [List.cons_append, matchLoop, if_pos good_ready, get_ready]
    dsimp only
    rw [if_neg (not_not.mpr rfl)]
    exact ih (Nat.lt_of_succ_lt_succ hfuel)

theorem matchPattern_cut {cur : UInt8} {todo : Bytes} (hc : isSpace c = false) :
    (matchPattern (c :: p ++ cur :: todo) (ready before (c :: p))).2.fail = true := by
  rw [matchPattern, ws_stop hc]
  exact matchLoop_cut (Nat.lt_succ_self _)

theorem parseBool_cut {cur : UInt8} {todo : Bytes} (hpattern : c :: p ++ cur :: todo = trueText ∨
    c :: p ++ cur :: todo = falseText ∧ c ≠ 0x74) (hspace : isSpace c = false) (hslash : c ≠ slash) :
    (parseBool (ready before (c :: p))).2.fail = true := by
  rcases hpattern with htrue | ⟨hfalse, hne⟩
  · have hcut : (matchPattern trueText (ready before (c :: p))).2.fail = true := by
      rw [← htrue]
      exact matchPattern_cut hspace
    rcases hmatch : matchPattern trueText (ready before (c :: p)) with ⟨_ | _, s₁⟩
    · rw [hmatch] at hcut
      obtain ⟨s₂, hfalse, h₂⟩ := fail_matchPattern (List.cons_ne_nil 0x66 [0x61, 0x6C, 0x73, 0x65]) hcut
      rw [parseBool, hmatch]
      dsimp only at hfalse ⊢
      rw [falseText, hfalse]
      exact h₂
    · rw [hmatch] at hcut
      rw [parseBool, hmatch]
      exact hcut
  · have hcut : (matchPattern falseText (ready before (c :: p))).2.fail = true := by
      rw [← hfalse]
      exact matchPattern_cut hspace
    rw [parseBool, trueText, matchPattern_miss hspace hne hslash]
    dsimp only
    rcases hmatch : matchPattern falseText (ready before (c :: p)) with ⟨_ | _, s₁⟩
    · rw [hmatch] at hcut
      exact hcut
    · rw [hmatch] at hcut
      exact hcut

theorem parseNull_cut {cur : UInt8} {todo : Bytes} (hpattern : c :: p ++ cur :: todo = nullText)
    (hspace : isSpace c = false) : (parseNull (ready before (c :: p))).2.fail = true := by
  have hcut : (matchPattern nullText (ready before (c :: p))).2.fail = true := by
    rw [← hpattern]
    exact matchPattern_cut hspace
  rcases hmatch : matchPattern nullText (ready before (c :: p)) with ⟨_ | _, s₁⟩
  · rw [hmatch] at hcut
    rw [parseNull, hmatch]
    dsimp only
    rw [peek_dead (not_good_of_fail hcut)]
  · rw [hmatch] at hcut
    rw [parseNull, hmatch]
    exact hcut

/-- A scalar whose text is `t` leaves nothing to be matched where its text breaks off, or is all there is. -/
def ScalarBreaks (N : NumberFormat ν) (t : Bytes) : Prop :=
  ∀ ⦃p⦄, p <+: t → ∀ before, Dead (parseScalar N (ready before p)).2

theorem parseScalar_nil : Dead (parseScalar N (ready before [])).2 := by
  obtain ⟨s', hscalar, hfail⟩ := Over.of_nil.parseScalar (N := N) (s := ready before [])
  rw [hscalar]
  exact Dead.of_fail hfail

theorem parseScalar_boolCut (hc : Unlike c) (h : (parseBool (ready before (c :: p))).2.fail = true) :
    Dead (parseScalar N (ready before (c :: p))).2 := by
  rcases hbool : parseBool (ready before (c :: p)) with ⟨_ | b, s₁⟩
  · rw [hbool] at h
    obtain ⟨hspace, hquote, happ, hslash, hnumeric⟩ := hc
    obtain ⟨s₂, hnull, h₂⟩ := fail_parseNull h
    rw [parseScalar, parseString_miss hspace hquote happ hslash]
    dsimp only
    rw [parseNumber_miss hspace hnumeric]
    dsimp only at hnull ⊢
    rw [hbool]
    dsimp only
    rw [hnull]
    exact Dead.of_fail h₂
  · rw [hbool] at h
    rw [parseScalar_of_bool hc hbool]
    exact Dead.of_fail h

/-- A piece of a text is nothing, or all of it, or it begins it and something is missing. -/
theorem prefix_cases {t : Bytes} (h : p <+: c :: t) :
    p = [] ∨ p = c :: t ∨ ∃ q cur todo, p = c :: q ∧ c :: q ++ cur :: todo = c :: t := by
  obtain ⟨rest, heq⟩ := h
  cases p with
  | nil => exact .inl rfl
  | cons b q =>
    obtain ⟨rfl, hq⟩ := List.cons.inj heq
    cases rest with
    | nil =>
      have hfull : q = t := (List.append_nil q).symm.trans hq
      exact .inr (.inl (by rw [hfull]))
    | cons cur todo => exact .inr (.inr ⟨q, cur, todo, rfl, heq⟩)

theorem true_breaks : ScalarBreaks N trueText := by
  intro p hp before
  rcases prefix_cases hp with rfl | rfl | ⟨q, cur, todo, rfl, heq⟩
  · exact parseScalar_nil
  · have hfull : parseScalar N (ready before trueText) = (some (.bool true), ready (trueText.reverse ++ before) []) :=
      parseScalar_true
    refine (congrArg (fun r => Dead (Prod.snd r)) hfull).mpr Over.of_nil.dead
  · exact parseScalar_boolCut (by decide) (parseBool_cut (.inl heq) rfl (by decide))

theorem false_breaks : ScalarBreaks N falseText := by
  intro p hp before
  rcases prefix_cases hp with rfl | rfl | ⟨q, cur, todo, rfl, heq⟩
  · exact parseScalar_nil
  · have hfull : parseScalar N (ready before falseText) =
        (some (.bool false), ready (falseText.reverse ++ before) []) := parseScalar_false
    refine (congrArg (fun r => Dead (Prod.snd r)) hfull).mpr Over.of_nil.dead
  · exact parseScalar_boolCut (by decide) (parseBool_cut (.inr ⟨heq, by decide⟩) rfl (by decide))

theorem null_breaks : ScalarBreaks N nullText := by
  intro p hp before
  rcases prefix_cases hp with rfl | rfl | ⟨q, cur, todo, rfl, heq⟩
  · exact parseScalar_nil
  · have hfull : parseScalar N (ready before nullText) = (some (.null), ready (nullText.reverse ++ before) []) :=
      parseScalar_null
    refine (congrArg (fun r => Dead (Prod.snd r)) hfull).mpr Over.of_nil.dead
  · have hcut : (parseNull (ready before (0x6E :: q))).2.fail = true := parseNull_cut heq rfl
    rw [parseScalar_of_null (by decide) (by decide) (by decide) rfl]
    exact Dead.of_fail hcut

theorem number_breaks {x : ν} (h : N.Spelled x t) : ScalarBreaks N t := by
  intro p hp before
  cases p with
  | nil => exact parseScalar_nil
  | cons b p =>
    obtain ⟨b', r, rfl, hb⟩ := N.spelled_head h
    obtain ⟨q, heq⟩ := hp
    obtain ⟨rfl, -⟩ := List.cons.inj heq
    obtain ⟨hspace, hquote, happ, hslash, hcomma, -, -⟩ := isNumeric_facts hb
    have hws : (ready before (b :: p)).ws = ready before (b :: p) := ws_stop hspace
    have htell : (ready before (b :: p)).tellg = (some (before, b :: p), ready before (b :: p)) := rfl
    -- What is left of a number may be none, and then no other scalar begins with its first byte either.
    rcases N.read_prefix h ⟨q, heq⟩ with hread | ⟨y, hread⟩
    · have hnumber : parseNumber N (ready before (b :: p)) = (none, ready before (b :: p)) := by
        rw [parseNumber, hws, htell]
        dsimp only
        rw [extract, hws]
        dsimp only
        rw [if_pos good_ready, hread]
        rfl
      have hne {c : UInt8} (hc : isNumeric c = false) : b ≠ c := fun heq => by
        rw [heq, hc] at hb
        cases hb
      have hscalar : parseScalar N (ready before (b :: p)) = (none, ready before (b :: p)) := by
        rw [parseScalar, parseString_miss hspace hquote happ hslash]
        dsimp only
        rw [hnumber]
        dsimp only
        rw [parseBool_miss hspace hslash (hne rfl) (hne rfl)]
        dsimp only
        rw [parseNull_miss hspace hslash (hne rfl) hcomma]
      rw [hscalar]
      exact .inr ⟨before, b, p, rfl, hb⟩
    -- Or it is another number, which is read to the end of the text.
    · have hnumber : ∃ s', parseNumber N (ready before (b :: p)) = (some y, s') ∧ s'.rest = [] := by
        refine ⟨⟨((b :: p).take (b :: p).length).reverse ++ before, [], true, false⟩, ?_, rfl⟩
        rw [parseNumber, hws, htell]
        dsimp only
        rw [extract, hws]
        dsimp only
        rw [if_pos good_ready, hread]
        rfl
      obtain ⟨s', hnumber, hrest⟩ := hnumber
      rw [parseScalar, parseString_miss hspace hquote happ hslash]
      dsimp only
      rw [hnumber]
      exact Over.dead (.inr (hrest ▸ List.forall_mem_nil _))

theorem getFour_cut {n : Nat} {ch : UInt8} {ss : Bytes} (h : p.length < n) :
    (getFour n ch ss (ready before p)).2.2.fail = true := by
  induction p generalizing n ch ss before with
  | nil =>
    obtain ⟨n, rfl⟩ := Nat.exists_eq_succ_of_ne_zero (Nat.ne_of_gt h)
    cases n <;> rfl
  | cons b p ih =>
    obtain ⟨n, rfl⟩ := Nat.exists_eq_succ_of_ne_zero (Nat.ne_of_gt (Nat.zero_lt_of_lt h))
    rw [getFour, if_pos good_ready, get_ready]
    exact ih (Nat.lt_of_succ_lt_succ h)

/-- Where the input ends before the delimiter, the stream fails. -/
theorem stringLoop_cut {s t : Bytes} (h : Escapes byteUnit s t) (hp : p <+: t) {fuel : Nat} {ch : UInt8} {value : Bytes}
    (hfuel : p.length < fuel) : (stringLoop quote fuel ch value (ready before p)).2.2.fail = true := by
  have hdead {fuel : Nat} {ch : UInt8} {value : Bytes} {s : IStream} (h : s.fail = true) :
      (stringLoop quote fuel ch value s).2.2.fail = true := by
    rw [stringLoop_dead (not_good_of_fail h)]
    exact h
  have hnil {fuel : Nat} {ch : UInt8} {value : Bytes} {before : Bytes} (hfuel : 0 < fuel) :
      (stringLoop quote fuel ch value (ready before [])).2.2.fail = true := by
    obtain ⟨fuel, rfl⟩ := Nat.exists_eq_succ_of_ne_zero (Nat.ne_of_gt hfuel)
    rw [stringLoop, if_pos good_ready]
    dsimp only
    split_ifs
    · rfl
    · exact hdead (escape_fail (get_fail rfl))
    · exact hdead rfl
  -- After a backslash: what is left of the loop once the escape has been read.
  have hescape {fuel : Nat} {ch c : UInt8} {value before rest : Bytes} (hfuel : (backslash :: c :: rest).length < fuel)
      (hrest : ∀ {fuel ch value}, rest.length < fuel →
        (stringLoop quote fuel ch value (escape quote c (ready (c :: backslash :: before) rest)).2.2).2.2.fail = true) :
      (stringLoop quote fuel ch value (ready before (backslash :: c :: rest))).2.2.fail = true := by
    obtain ⟨fuel, rfl⟩ := Nat.exists_eq_succ_of_ne_zero (Nat.ne_of_gt (Nat.zero_lt_of_lt hfuel))
    rw [stringLoop, if_pos good_ready, get_ready]
    dsimp only
    rw [if_neg (by decide), if_pos rfl, get_ready]
    exact hrest (Nat.lt_of_succ_lt (Nat.lt_of_succ_lt_succ hfuel))
  have hbackslash {fuel : Nat} {ch : UInt8} {value before : Bytes} (hfuel : [backslash].length < fuel) :
      (stringLoop quote fuel ch value (ready before [backslash])).2.2.fail = true := by
    obtain ⟨fuel, rfl⟩ := Nat.exists_eq_succ_of_ne_zero (Nat.ne_of_gt (Nat.zero_lt_of_lt hfuel))
    rw [stringLoop, if_pos good_ready, get_ready]
    dsimp only
    rw [if_neg (by decide), if_pos rfl]
    have hget : (ready (backslash :: before) []).get backslash =
        (backslash, ⟨backslash :: before, [], true, true⟩) := rfl
    rw [hget]
    exact hdead rfl
  induction h generalizing p fuel ch value before with
  | nil =>
    obtain rfl := List.prefix_nil.mp hp
    exact hnil hfuel
  | @plain b s t noQuote noBackslash _ ih =>
    obtain rfl | ⟨q, rfl, hq⟩ := List.prefix_cons_iff.mp hp
    · exact hnil hfuel
    · obtain ⟨fuel, rfl⟩ := Nat.exists_eq_succ_of_ne_zero (Nat.ne_of_gt (Nat.zero_lt_of_lt hfuel))
      rw [stringLoop, if_pos good_ready, get_ready]
      dsimp only
      rw [if_neg noQuote, if_neg noBackslash]
      exact ih hq (Nat.lt_of_succ_lt_succ hfuel)
  | @short b c s t stands _ ih =>
    obtain rfl | ⟨q, rfl, hq⟩ := List.prefix_cons_iff.mp hp
    · exact hnil hfuel
    · obtain rfl | ⟨q', rfl, hq'⟩ := List.prefix_cons_iff.mp hq
      · exact hbackslash hfuel
      · refine hescape hfuel fun hfuel => ?_
        rw [escape_short stands]
        exact ih hq' hfuel
  | @unicode b₁ b₂ b₃ b₄ n bytes s t digits stands _ ih =>
    obtain rfl | ⟨q, rfl, hq⟩ := List.prefix_cons_iff.mp hp
    · exact hnil hfuel
    · obtain rfl | ⟨r, rfl, hr⟩ := List.prefix_cons_iff.mp hq
      · exact hbackslash hfuel
      · refine hescape hfuel fun {fuel ch value} hfuel => ?_
        have hdigits : r <+: [b₁, b₂, b₃, b₄] ++ t := hr
        obtain hshort | ⟨q', rfl, hq'⟩ := prefix_append_cases hdigits
        · by_cases hlength : r.length < 4
          · exact hdead (getFour_cut hlength)
          · have hfull : r = [b₁, b₂, b₃, b₄] := hshort.eq_of_length_le (not_lt.mp hlength)
            rw [hfull, escape_unicode digits]
            exact hnil (Nat.zero_lt_of_lt hfuel)
        · rw [List.cons_append, List.cons_append, List.cons_append, List.cons_append, List.nil_append,
            escape_unicode digits]
          refine ih hq' (Nat.lt_of_le_of_lt ?_ hfuel)
          rw [List.length_append]
          exact Nat.le_add_left _ _

theorem parseString_cut (before : Bytes) {s : Bytes} (h : Escapes byteUnit s t) (hp : p <+: t) :
    ∃ s', parseString (ready before (quote :: p)) = (none, s') ∧ s'.fail = true := by
  have hopen : matchPattern [quote] (ready before (quote :: p)) = (true, ready (quote :: before) p) :=
    matchPattern_hit rfl
  have hcut : (stringLoop quote (p.length + 1) 0 [] (ready (quote :: before) p)).2.2.fail = true :=
    stringLoop_cut h hp (Nat.lt_succ_self _)
  refine ⟨_, ?_, hcut⟩
  rw [parseString, hopen]
  dsimp only
  rw [parseDelimited]
  dsimp only
  rw [hcut]
  rfl

theorem string_breaks {s : Bytes} (h : Escapes byteUnit s t) : ScalarBreaks N (quote :: t ++ [quote]) := by
  intro p hp before
  rcases prefix_append_cases hp with hp | ⟨q, rfl, hq⟩
  · obtain rfl | ⟨q, rfl, hq⟩ := List.prefix_cons_iff.mp hp
    · exact parseScalar_nil
    · obtain ⟨s', hstring, hfail⟩ := parseString_cut before h hq
      obtain ⟨s₁, hscalar, h₁⟩ := parseScalar_of_fail (N := N) hstring hfail
      rw [hscalar]
      exact Dead.of_fail h₁
  · obtain rfl | ⟨q', rfl, hq'⟩ := List.prefix_cons_iff.mp hq
    · obtain ⟨s', hstring, hfail⟩ := parseString_cut before h (List.prefix_refl t)
      obtain ⟨s₁, hscalar, h₁⟩ := parseScalar_of_fail (N := N) hstring hfail
      rw [List.append_nil, hscalar]
      exact Dead.of_fail h₁
    · obtain rfl := List.prefix_nil.mp hq'
      have hfull : parseScalar N (ready before (quote :: t ++ [quote] ++ [])) =
          (some (.string s), ready ((quote :: t ++ [quote]).reverse ++ before) []) := parseScalar_string h
      rw [List.append_nil] at hfull
      rw [hfull]
      exact Over.of_nil.dead

/-! ### Arrays and objects that break off -/

/-- What the parser makes of a piece of the text of a phrase, or of all of it, where the input ends there. -/
def Breaks (N : NumberFormat ν) : Phrase ν → Bytes → Prop
  | .value _, t => ∀ ⦃p fuel before r⦄, p <+: t → 3 * t.length ≤ fuel →
    parseValue N fuel (ready before p) = some r → Dead r.2
  | .elements _, t => ∀ ⦃p fuel before xs r⦄, p <+: t → 3 * t.length < fuel →
    parseElements N fuel xs (ready before p) = some r → Dead r.2
  | .members _, t => ∀ ⦃p fuel before fields r⦄, p <+: t → 3 * t.length < fuel →
    parseMembers N fuel fields (ready before p) = some r → Dead r.2.2

theorem breaks_scalar {v : Value ν} (h : ScalarBreaks N t) : Breaks N (.value v) t := fun p _ before _ hp _ hr =>
  Dead.parseValue (o := (parseScalar N (ready before p)).1) rfl (h hp before) hr

/-- After a bracket or a brace that opens something, the end of the input, or what does not close it. -/
theorem matchPattern_openCut (hc : c = closeBracket ∨ c = closeBrace) (h : Opens t) (hp : p <+: t) (before : Bytes) :
    (∃ s, matchPattern [c] (ready before p) = (false, s) ∧ Over s) ∨
      ∃ w r, p = w ++ r ∧ Blank w ∧ matchPattern [c] (ready before p) = (false, ready (w.reverse ++ before) r) := by
  obtain ⟨w, b, r, rfl, hw, hopens⟩ := h
  have hmark : c = closeBracket ∨ c = closeBrace ∨ c = comma := hc.imp_right .inl
  rcases prefix_append_cases hp with hblank | ⟨q, rfl, hq⟩
  · obtain ⟨s', hmatch, -, hover⟩ := (Over.of_blank (blank_start hw hblank) : Over (ready before p)).matchPattern
      (List.cons_ne_nil c [])
    exact .inl ⟨s', hmatch, hover⟩
  · obtain rfl | ⟨q', rfl, -⟩ := List.prefix_cons_iff.mp hq
    · rw [List.append_nil]
      obtain ⟨s', hmatch, -, hover⟩ := (Over.of_blank hw : Over (ready before w)).matchPattern
        (List.cons_ne_nil c [])
      exact .inl ⟨s', hmatch, hover⟩
    · have hopens' : Opens (w ++ b :: q') := ⟨w, b, q', rfl, hw, hopens⟩
      obtain ⟨w', r', heq, hw', hmatch⟩ := matchPattern_opens before [] hopens' hmark
      rw [List.append_nil, List.append_nil] at hmatch
      exact .inr ⟨w', r', heq, hw', hmatch⟩

/-- Where the loop leaves a dead stream, the closing bracket is not matched. -/
theorem parseArray_dead {fuel : Nat} {r : Option (List (Value ν)) × IStream}
    (hmatch : matchPattern [closeBracket] (ready (openBracket :: before) p) = (false, s))
    (hdead : ∀ r, parseElements N fuel [] s = some r → Dead r.2)
    (hr : parseArray N (fuel + 1) (ready before (openBracket :: p)) = some r) : r.1 = none ∧ Dead r.2 := by
  have hopen : matchPattern [openBracket] (ready before (openBracket :: p)) = (true, ready (openBracket :: before) p) :=
    matchPattern_hit rfl
  rw [parseArray, hopen] at hr
  dsimp only at hr
  rw [hmatch] at hr
  obtain ⟨⟨xs, s₁⟩, helements, rfl⟩ := Option.map_eq_some_iff.mp hr
  obtain ⟨s₂, hclose, h₂⟩ := (hdead _ helements).matchPattern (c := closeBracket) rfl
  dsimp only at hclose ⊢
  rw [hclose]
  exact ⟨rfl, h₂⟩

theorem parseObject_dead {fuel : Nat} {r : Bool × Fields ν × IStream}
    (hmatch : matchPattern [closeBrace] (ready (openBrace :: before) p) = (false, s))
    (hdead : ∀ r, parseMembers N fuel [] s = some r → Dead r.2.2)
    (hr : parseObject N (fuel + 1) (ready before (openBrace :: p)) = some r) : r.1 = false ∧ Dead r.2.2 := by
  have hopen : matchPattern [openBrace] (ready before (openBrace :: p)) = (true, ready (openBrace :: before) p) :=
    matchPattern_hit rfl
  rw [parseObject, hopen] at hr
  dsimp only at hr
  rw [hmatch] at hr
  obtain ⟨⟨ok, fields, s₁⟩, hmembers, rfl⟩ := Option.map_eq_some_iff.mp hr
  have h₁ := hdead _ hmembers
  cases ok with
  | false => exact ⟨rfl, h₁⟩
  | true =>
    obtain ⟨s₂, hclose, h₂⟩ := h₁.matchPattern (c := closeBrace) rfl
    dsimp only at hclose ⊢
    rw [if_pos rfl, hclose]
    exact ⟨rfl, h₂⟩

theorem parseArray_cutBlank {fuel : Nat} {r : Option (List (Value ν)) × IStream} (hw : Blank w)
    (hr : parseArray N (fuel + 2) (ready before (openBracket :: w)) = some r) : r.1 = none ∧ Dead r.2 := by
  obtain ⟨s, hmatch, -, hover⟩ := (Over.of_blank hw : Over (ready (openBracket :: before) w)).matchPattern
    (List.cons_ne_nil closeBracket [])
  exact parseArray_dead hmatch (fun r hr => parseElements_dead (fun r hr => hover.parseValue hr) hr) hr

theorem parseObject_cutBlank {fuel : Nat} {r : Bool × Fields ν × IStream} (hw : Blank w)
    (hr : parseObject N (fuel + 1) (ready before (openBrace :: w)) = some r) : r.1 = false ∧ Dead r.2.2 := by
  obtain ⟨s, hmatch, -, hover⟩ := (Over.of_blank hw : Over (ready (openBrace :: before) w)).matchPattern
    (List.cons_ne_nil closeBrace [])
  exact parseObject_dead hmatch (fun r hr => hover.parseMembers hr) hr

theorem parseArray_cut {vs : List (Value ν)} {fuel : Nat} {r : Option (List (Value ν)) × IStream}
    (h : Breaks N (.elements vs) t) (hopens : Opens t) (hp : p <+: t) (hfuel : 3 * t.length < fuel + 1)
    (hr : parseArray N (fuel + 2) (ready before (openBracket :: p)) = some r) : r.1 = none ∧ Dead r.2 := by
  rcases matchPattern_openCut (.inl rfl) hopens hp (openBracket :: before) with ⟨s, hmatch, hover⟩ |
    ⟨w, q, rfl, hw, hmatch⟩
  · exact parseArray_dead hmatch (fun r hr => parseElements_dead (fun r hr => hover.parseValue hr) hr) hr
  · refine parseArray_dead hmatch (fun r hr => ?_) hr
    rw [← parseElements_skip hw] at hr
    exact h hp hfuel hr

theorem parseObject_cut {fields : Fields ν} {fuel : Nat} {r : Bool × Fields ν × IStream}
    (h : Breaks N (.members fields) t) (hopens : Opens t) (hp : p <+: t) (hfuel : 3 * t.length < fuel)
    (hr : parseObject N (fuel + 1) (ready before (openBrace :: p)) = some r) : r.1 = false ∧ Dead r.2.2 := by
  rcases matchPattern_openCut (.inr rfl) hopens hp (openBrace :: before) with ⟨s, hmatch, hover⟩ |
    ⟨w, q, rfl, hw, hmatch⟩
  · exact parseObject_dead hmatch (fun r hr => hover.parseMembers hr) hr
  · refine parseObject_dead hmatch (fun r hr => ?_) hr
    rw [← parseMembers_skip hw] at hr
    exact h hp hfuel hr

/-- A value between white space, the input ending in it or after it. -/
theorem parseValue_cut {v : Value ν} {w w' : Bytes} {fuel : Nat} {r : Option (Value ν) × IStream}
    (hreads : Reads N (.value v) t) (h : Breaks N (.value v) t) (hw : Blank w) (hw' : Blank w')
    (hp : p <+: w ++ t ++ w') (hfuel : 3 * t.length ≤ fuel) (hr : parseValue N fuel (ready before p) = some r) :
    Dead r.2 := by
  rcases prefix_append_cases hp with hp | ⟨q, rfl, hq⟩
  · rcases prefix_append_cases hp with hp | ⟨q, rfl, hq⟩
    · exact (Over.of_blank (blank_start hw hp)).parseValue hr
    · rw [parseValue_skip hw] at hr
      exact h hq hfuel hr
  · rw [List.append_assoc, parseValue_skip hw] at hr
    cases q with
    | nil =>
      rw [List.append_nil] at hr
      exact h (List.prefix_refl t) hfuel hr
    | cons b q =>
      have hb : isNumeric b = false := not_isNumeric_of_isWhite (hw' b (hq.subset List.mem_cons_self))
      rw [hreads hfuel ⟨b, q, rfl, hb⟩] at hr
      cases hr
      exact (Over.of_blank (blank_start hw' hq)).dead

theorem parseValue_cutArray {fuel : Nat} {r : Option (Value ν) × IStream}
    (hcut : ∀ r, parseArray N fuel (ready before (openBracket :: p)) = some r → r.1 = none ∧ Dead r.2)
    (hr : parseValue N (fuel + 1) (ready before (openBracket :: p)) = some r) : Dead r.2 := by
  rw [parseValue, parseScalar_miss (by decide) (by decide) (by decide) (by decide) (by decide)] at hr
  dsimp only at hr
  rw [peek_ready] at hr
  dsimp only at hr
  rw [if_pos rfl] at hr
  split at hr
  · next xs s₁ harray => cases (hcut _ harray).1
  · next s₁ harray =>
    obtain ⟨⟨ok, fields, s₂⟩, hobject, rfl⟩ := Option.map_eq_some_iff.mp hr
    exact ((hcut _ harray).2.parseObject hobject).2
  · cases hr

theorem parseValue_cutObject {fuel : Nat} {r : Option (Value ν) × IStream}
    (hcut : ∀ r, parseObject N fuel (ready before (openBrace :: p)) = some r → r.1 = false ∧ Dead r.2.2)
    (hr : parseValue N (fuel + 1) (ready before (openBrace :: p)) = some r) : Dead r.2 := by
  rw [parseValue, parseScalar_miss (by decide) (by decide) (by decide) (by decide) (by decide)] at hr
  dsimp only at hr
  rw [peek_ready] at hr
  dsimp only at hr
  rw [if_neg (by decide)] at hr
  obtain ⟨⟨ok, fields, s₂⟩, hobject, rfl⟩ := Option.map_eq_some_iff.mp hr
  exact (hcut _ hobject).2

theorem bracket_cases {c c' : UInt8} (h : p <+: c :: t ++ [c']) :
    p = [] ∨ (∃ q, p = c :: q ∧ q <+: t) ∨ p = c :: t ++ [c'] := by
  rcases prefix_append_cases h with hp | ⟨q, rfl, hq⟩
  · obtain rfl | ⟨q, rfl, hq⟩ := List.prefix_cons_iff.mp hp
    · exact .inl rfl
    · exact .inr (.inl ⟨q, rfl, hq⟩)
  · obtain rfl | ⟨q', rfl, hq'⟩ := List.prefix_cons_iff.mp hq
    · rw [List.append_nil]
      exact .inr (.inl ⟨t, rfl, List.prefix_refl t⟩)
    · obtain rfl := List.prefix_nil.mp hq'
      exact .inr (.inr rfl)

/-- Before the colon there is no value yet. -/
theorem parseMembers_cutKey {key k w₁ : Bytes} {fuel : Nat} {fields : Fields ν} {r : Bool × Fields ν × IStream}
    (hkey : Escapes byteUnit key k) (hw : Blank w) (hw₁ : Blank w₁) (hp : p <+: w ++ (quote :: k ++ [quote]) ++ w₁)
    (hr : parseMembers N (fuel + 1) fields (ready before p) = some r) : Dead r.2.2 := by
  -- The key has been read, and then the input ends.
  have hcolon {q : Bytes} (hq : q <+: w₁) (hr : parseMembers N (fuel + 1) fields
      (ready before (w ++ (quote :: k ++ [quote] ++ q))) = some r) : Dead r.2.2 := by
    have hend : Over (ready ((quote :: k ++ [quote]).reverse ++ (w.reverse ++ before)) q) :=
      .of_blank (blank_start hw₁ hq)
    obtain ⟨s, hmatch, -, hover⟩ := hend.matchPattern (List.cons_ne_nil colon [])
    rw [parseMembers_skip hw, parseMembers, parseString_hit hkey] at hr
    dsimp only at hr
    rw [hmatch] at hr
    cases hr
    exact hover.dead
  rcases prefix_append_cases hp with hp | ⟨q, rfl, hq⟩
  · rcases prefix_append_cases hp with hp | ⟨q, rfl, hq⟩
    · exact (Over.of_blank (blank_start hw hp)).parseMembers hr
    · rcases bracket_cases hq with rfl | ⟨q', rfl, hq'⟩ | rfl
      · rw [List.append_nil] at hr
        exact (Over.of_blank hw).parseMembers hr
      · obtain ⟨s', hstring, hfail⟩ := parseString_cut (w.reverse ++ before) hkey hq'
        rw [parseMembers_skip hw, parseMembers, hstring] at hr
        cases hr
        exact (Dead.of_fail hfail).peek
      · refine hcolon (List.nil_prefix) ?_
        rw [List.append_nil]
        exact hr
  · rw [List.append_assoc] at hr
    exact hcolon hq hr

theorem parseMembers_cutValue {v : Value ν} {key k w₁ w₂ w' : Bytes} {fuel : Nat} {fields : Fields ν}
    {r : Bool × Fields ν × IStream} (hreads : Reads N (.value v) t) (h : Breaks N (.value v) t)
    (hkey : Escapes byteUnit key k) (hw : Blank w) (hw₁ : Blank w₁) (hw₂ : Blank w₂) (hw' : Blank w')
    (hp : p <+: w₂ ++ t ++ w') (hfuel : 3 * t.length ≤ fuel)
    (hr : parseMembers N (fuel + 1) fields (ready before (w ++ (quote :: k ++ [quote]) ++ w₁ ++ colon :: p)) = some r) :
    Dead r.2.2 := by
  have hcolon (before : Bytes) : matchPattern [colon] (ready before (w₁ ++ colon :: p)) =
      (true, ready (colon :: (w₁.reverse ++ before)) p) := (matchPattern_skip hw₁).trans (matchPattern_hit rfl)
  rw [List.append_assoc, List.append_assoc, parseMembers_skip hw, parseMembers, parseString_hit hkey] at hr
  dsimp only at hr
  rw [hcolon] at hr
  dsimp only at hr
  split at hr
  · cases hr
  · next s₁ hvalue =>
    cases hr
    exact parseValue_cut hreads h hw₂ hw' hp hfuel hvalue
  · next v' s₁ hvalue =>
    obtain ⟨s₂, hmatch, h₂⟩ := (parseValue_cut hreads h hw₂ hw' hp hfuel hvalue).matchPattern (c := comma) rfl
    dsimp only at hmatch
    rw [hmatch] at hr
    cases hr
    exact h₂

/-- A value that is there to its end. -/
theorem parseValue_whole {v : Value ν} {before' : Bytes} {fuel : Nat} {r : Option (Value ν) × IStream}
    (hwhole : parseValue N fuel (ready before (p ++ [])) = some (some v, ready before' []))
    (hr : parseValue N fuel (ready before p) = some r) : Dead r.2 := by
  rw [List.append_nil] at hwhole
  cases hwhole.symm.trans hr
  exact Over.of_nil.dead

/-- By induction on the derivation of the text, one case for each way in which a phrase can be written. -/
theorem breaks_of_spells {phrase : Phrase ν} (h : Spells byteUnit N.Spelled phrase t) : Breaks N phrase t := by
  induction h with
  | null => exact breaks_scalar null_breaks
  | true => exact breaks_scalar true_breaks
  | false => exact breaks_scalar false_breaks
  | number spelled => exact breaks_scalar (number_breaks spelled)
  | string escaped => exact breaks_scalar (string_breaks escaped)
  | @emptyArray w blank =>
    intro p fuel before r hp hfuel hr
    simp only [List.length_cons, List.length_append, List.length_nil] at hfuel
    obtain ⟨fuel, rfl⟩ := Nat.exists_eq_add_of_le' (show 3 ≤ fuel by omega)
    -- The text ends before the bracket, inside, or after the closing bracket, where the whole is read.
    rcases bracket_cases hp with rfl | ⟨q, rfl, hq⟩ | rfl
    · exact Over.of_nil.parseValue hr
    · exact parseValue_cutArray (fun r hr => parseArray_cutBlank (blank_start blank hq) hr) hr
    · exact parseValue_whole (parseValue_array (parseArray_empty blank)) hr
  | @array xs t inner ih =>
    intro p fuel before r hp hfuel hr
    simp only [List.length_cons, List.length_append, List.length_nil] at hfuel
    obtain ⟨fuel, rfl⟩ := Nat.exists_eq_add_of_le' (show 3 ≤ fuel by omega)
    have hopens : Opens t := opens_of_spells inner
    rcases bracket_cases hp with rfl | ⟨q, rfl, hq⟩ | rfl
    · exact Over.of_nil.parseValue hr
    · exact parseValue_cutArray (fun r hr => parseArray_cut ih hopens hq (by omega) hr) hr
    · exact parseValue_whole (parseValue_array (parseArray_elements (reads_of_spells inner) hopens (by omega))) hr
  | @emptyObject w blank =>
    intro p fuel before r hp hfuel hr
    simp only [List.length_cons, List.length_append, List.length_nil] at hfuel
    obtain ⟨fuel, rfl⟩ := Nat.exists_eq_add_of_le' (show 3 ≤ fuel by omega)
    rcases bracket_cases hp with rfl | ⟨q, rfl, hq⟩ | rfl
    · exact Over.of_nil.parseValue hr
    · exact parseValue_cutObject (fun r hr => parseObject_cutBlank (blank_start blank hq) hr) hr
    · exact parseValue_whole (parseValue_object (parseObject_empty blank)) hr
  | @object fields t inner ih =>
    intro p fuel before r hp hfuel hr
    simp only [List.length_cons, List.length_append, List.length_nil] at hfuel
    obtain ⟨fuel, rfl⟩ := Nat.exists_eq_add_of_le' (show 3 ≤ fuel by omega)
    have hopens : Opens t := opens_of_spells inner
    rcases bracket_cases hp with rfl | ⟨q, rfl, hq⟩ | rfl
    · exact Over.of_nil.parseValue hr
    · exact parseValue_cutObject (fun r hr => parseObject_cut ih hopens hq (by omega) hr) hr
    · exact parseValue_whole (parseValue_object (parseObject_members (reads_of_spells inner) hopens (by omega))) hr
  | @element v w t w' blank inner blank' ih =>
    intro p fuel before xs r hp hfuel hr
    simp only [List.length_append] at hfuel
    obtain ⟨fuel, rfl⟩ := Nat.exists_eq_add_of_le' (show 1 ≤ fuel by omega)
    -- There is no comma after the last element, so a cut can only be in its value.
    refine parseElements_dead (fun r hr => ?_) hr
    exact parseValue_cut (reads_of_spells inner) ih blank blank' hp (by omega) hr
  | @elements v xs w t w' t' blank inner blank' more ih ihMore =>
    intro p fuel before xs r hp hfuel hr
    simp only [List.length_append, List.length_cons] at hfuel
    obtain ⟨fuel, rfl⟩ := Nat.exists_eq_add_of_le' (show 1 ≤ fuel by omega)
    have hvalue (hp : p <+: w ++ t ++ w') : Dead r.2 := parseElements_dead
      (fun r hr => parseValue_cut (reads_of_spells inner) ih blank blank' hp (by omega) hr) hr
    -- A cut after the comma leaves the first value whole; then the cut is in the rest of the elements.
    rcases prefix_append_cases hp with hp | ⟨q, rfl, hq⟩
    · exact hvalue hp
    · obtain rfl | ⟨q', rfl, hq'⟩ := List.prefix_cons_iff.mp hq
      · exact hvalue ⟨[], by rw [List.append_nil, List.append_nil]⟩
      -- The value and its comma are read, and the loop goes on with what is left.
      · rw [parseElements_more (reads_of_spells inner) blank blank' (by omega)] at hr
        exact ihMore hq' (by omega) hr
  | @member key v w k w₁ w₂ t w' blank escaped blank₁ blank₂ inner blank' ih =>
    intro p fuel before fields r hp hfuel hr
    simp only [List.length_append, List.length_cons] at hfuel
    obtain ⟨fuel, rfl⟩ := Nat.exists_eq_add_of_le' (show 1 ≤ fuel by omega)
    -- A cut before the colon is in the key, one after it in the value.
    rcases prefix_append_cases hp with hp | ⟨q, rfl, hq⟩
    · exact parseMembers_cutKey escaped blank blank₁ hp hr
    · obtain rfl | ⟨q', rfl, hq'⟩ := List.prefix_cons_iff.mp hq
      · rw [List.append_nil] at hr
        exact parseMembers_cutKey escaped blank blank₁ (List.prefix_refl _) hr
      · exact parseMembers_cutValue (reads_of_spells inner) ih escaped blank blank₁ blank₂ blank' hq' (by omega) hr
  | @members key v more w k w₁ w₂ t w' t' blank escaped blank₁ blank₂ inner blank' _ ih ihMore =>
    intro p fuel before fields r hp hfuel hr
    simp only [List.length_append, List.length_cons] at hfuel
    obtain ⟨fuel, rfl⟩ := Nat.exists_eq_add_of_le' (show 1 ≤ fuel by omega)
    rcases prefix_append_cases hp with hp | ⟨q, rfl, hq⟩
    · exact parseMembers_cutKey escaped blank blank₁ hp hr
    · obtain rfl | ⟨q', rfl, hq'⟩ := List.prefix_cons_iff.mp hq
      · rw [List.append_nil] at hr
        exact parseMembers_cutKey escaped blank blank₁ (List.prefix_refl _) hr
      -- After the colon the cut is in this value, or past its comma in the members after it.
      · have hvalue (hp : q' <+: w₂ ++ t ++ w') : Dead r.2.2 := parseMembers_cutValue (reads_of_spells inner) ih
          escaped blank blank₁ blank₂ blank' hp (by omega) hr
        rcases prefix_append_cases hq' with hp | ⟨q'', rfl, hq''⟩
        · exact hvalue hp
        · obtain rfl | ⟨q₃, rfl, hq₃⟩ := List.prefix_cons_iff.mp hq''
          · exact hvalue ⟨[], by rw [List.append_nil, List.append_nil]⟩
          · have hcomma (before : Bytes) : matchPattern [comma] (ready before (w' ++ comma :: q₃)) =
                (true, ready (comma :: (w'.reverse ++ before)) q₃) :=
              (matchPattern_skip blank').trans (matchPattern_hit rfl)
            have hmember := parseMembers_value before (w' ++ comma :: q₃) fields (reads_of_spells inner) escaped blank
              blank₁ blank₂ (show 3 * t.length ≤ fuel by omega) (.of_blank blank' rfl)
            rw [hcomma] at hmember
            rw [List.append_assoc (w₂ ++ t), hmember] at hr
            exact ihMore hq₃ (by omega) hr

/-! ### Objects -/

/-- `Object::parse` reads the first object of its input, however it is written, and ignores what follows. -/
theorem parse_object (N : NumberFormat ν) {fields : Fields ν}
    (h : Spells byteUnit N.Spelled (.value (.object fields)) t) (hw : Blank w) (rest : Bytes) :
    parse N (ofText (w ++ t ++ rest)) =
      (true, SortedMap.storeAll [] (normalFields fields), ready (t.reverse ++ w.reverse) rest) := by
  have hparse : parseObject N (3 * (w ++ t ++ rest).length + 3) (ready [] (w ++ t ++ rest)) =
      some (parse N (ofText (w ++ t ++ rest))) := parse_eq (Nat.le_succ _)
  have hlength : t.length ≤ (w ++ t ++ rest).length := by
    rw [List.length_append, List.length_append]
    omega
  refine Option.some.inj (hparse.symm.trans ?_)
  rw [List.append_assoc, parseObject_skip hw]
  cases h with
  | emptyObject blank =>
    rw [parseObject_empty blank, List.append_nil]
    rfl
  | object inner =>
    simp only [List.length_cons, List.length_append, List.length_nil] at hlength
    rw [parseObject_members (reads_of_spells inner) (opens_of_spells inner) (by
      simp only [List.length_append, List.length_cons, List.length_nil]
      omega), List.append_nil]

/-- `Array::parse` reads the first array of its input. -/
theorem parseValues_array (N : NumberFormat ν) {xs : List (Value ν)}
    (h : Spells byteUnit N.Spelled (.value (.array xs)) t) (hw : Blank w) (rest : Bytes) :
    parseValues N (ofText (w ++ t ++ rest)) = normalAll xs := by
  have hopen {t' : Bytes} : matchPattern [openBracket] (ready [] (w ++ (openBracket :: t'))) =
      (true, ready (openBracket :: (w.reverse ++ [])) t') := (matchPattern_skip hw).trans (matchPattern_hit rfl)
  rw [List.append_assoc]
  cases h with
  | @emptyArray w' blank =>
    have hclose : matchPattern [closeBracket] (ready (openBracket :: (w.reverse ++ []))
        (w' ++ closeBracket :: rest)) = (true, ready (closeBracket :: (w'.reverse ++ openBracket :: (w.reverse ++ [])))
        rest) := (matchPattern_skip blank).trans (matchPattern_hit rfl)
    rw [List.append_assoc, List.singleton_append, List.cons_append, parseValues, ofText, hopen]
    dsimp only
    rw [hclose]
    rfl
  | @array _ t inner =>
    have hreads := reads_of_spells inner
    obtain ⟨w', r, rfl, hw', hnot⟩ := matchPattern_opens (openBracket :: (w.reverse ++ [])) (closeBracket :: rest)
      (opens_of_spells inner) (.inl rfl)
    rw [List.append_assoc, List.singleton_append, List.cons_append, parseValues, ofText, hopen]
    dsimp only
    rw [hnot]
    dsimp only
    have helements := @hreads (3 * (w' ++ r).length + 7 + 3 * rest.length) (openBracket :: (w.reverse ++ [])) rest []
      (by omega)
    rw [List.append_assoc, parseElements_skip hw'] at helements
    rw [parseElements_get (by simp only [List.length_append, List.length_cons]; omega) helements, List.nil_append]

/-- Of an object that breaks off, it reports a failure, however little is missing. -/
theorem parse_truncated (N : NumberFormat ν) {fields : Fields ν}
    (h : Spells byteUnit N.Spelled (.value (.object fields)) t) (hw : Blank w) (hp : p <+: t) (hne : p ≠ t) :
    (parse N (ofText (w ++ p))).1 = false := by
  have hparse : parseObject N (3 * (w ++ t).length + 3) (ready [] (w ++ p)) = some (parse N (ofText (w ++ p))) := by
    refine parse_eq ?_
    have hlength : p.length ≤ t.length := hp.length_le
    simp only [List.length_append]
    omega
  rw [parseObject_skip hw] at hparse
  cases h with
  | emptyObject blank =>
    rcases bracket_cases hp with rfl | ⟨q, rfl, hq⟩ | rfl
    · exact (Over.of_nil.dead.parseObject hparse).1
    · exact (parseObject_cutBlank (blank_start blank hq) hparse).1
    · exact absurd rfl hne
  | object inner =>
    rcases bracket_cases hp with rfl | ⟨q, rfl, hq⟩ | rfl
    · exact (Over.of_nil.dead.parseObject hparse).1
    · refine (parseObject_cut (breaks_of_spells inner) (opens_of_spells inner) hq ?_ hparse).1
      simp only [List.length_append, List.length_cons, List.length_nil]
      omega
    · exact absurd rfl hne

/-- Of the beginnings of an object's text, it takes the whole text and no other, with white space before it, and reads
    the object off that one whatever follows. -/
theorem parse_prefix_iff (N : NumberFormat ν) {fields : Fields ν}
    (h : Spells byteUnit N.Spelled (.value (.object fields)) t) (hw : Blank w) (hp : p <+: t) :
    ((parse N (ofText (w ++ p))).1 = true ↔ p = t) ∧ ∀ rest,
      parse N (ofText (w ++ t ++ rest)) =
        (true, SortedMap.storeAll [] (normalFields fields), ready (t.reverse ++ w.reverse) rest) := by
  refine ⟨⟨fun htrue => ?_, ?_⟩, fun rest => parse_object N h hw rest⟩
  · by_contra hne
    rw [parse_truncated N h hw hp hne] at htrue
    cases htrue
  · rintro rfl
    have hparse := parse_object N h hw []
    rw [List.append_nil] at hparse
    rw [hparse]

theorem spells_number : Spells byteUnit integers.Spelled (.value (.object [([0x61], .number 7)]))
    [0x7B, 0x22, 0x61, 0x22, 0x3A, 0x20, 0x37, 0x7D] := by
  have hmember : Spells byteUnit integers.Spelled (.members [([0x61], .number 7)])
      ([] ++ (quote :: [0x61] ++ [quote]) ++ [] ++ colon :: ([0x20] ++ [0x37] ++ [])) :=
    .member (by decide) (.plain (by decide) (by decide) .nil) (by decide) (by decide)
      (.number ⟨List.forall_mem_singleton.mpr rfl, rfl⟩) (by decide)
  exact .object hmember

theorem parse_prefix_number :
    let number : Bytes := [0x7B, 0x22, 0x61, 0x22, 0x3A, 0x20, 0x37, 0x7D]
    ((parse integers (ofText ([0x0A] ++ number.take 7))).1 = true ↔ number.take 7 = number) ∧ ∀ rest,
      parse integers (ofText ([0x0A] ++ number ++ rest)) =
        (true, [([0x61], .number 7)], ready (number.reverse ++ [0x0A]) rest) :=
  parse_prefix_iff integers spells_number (by decide) (List.take_prefix 7 _)

end Jsonxx
end MultiSlider
