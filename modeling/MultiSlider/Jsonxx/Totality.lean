import MultiSlider.Jsonxx.Reading

/-! `Object::parse` comes to an end on every input: the stream moves on over its text, every round of a loop reads
    something, and what is inside a bracket is shorter than what is left of the text. -/

namespace MultiSlider
namespace Jsonxx

open JsonText IStream

universe u v

/-- The second stream is the first one, at least `n` bytes further on. -/
def Ahead (n : Nat) (s s' : IStream) : Prop :=
  ∃ p, s.rest = p ++ s'.rest ∧ s'.before = p.reverse ++ s.before ∧ n ≤ p.length

/-- The second stream is the first one, not before its position. -/
abbrev Onward := Ahead 0

variable {s s' s'' : IStream} {n m : Nat} {c ch : UInt8}

/-! ### Positions -/

theorem Onward.refl (s : IStream) : Onward s s := ⟨[], rfl, rfl, Nat.zero_le _⟩

/-- The flags of a stream are not its position. -/
theorem Onward.of_eq (hrest : s'.rest = s.rest) (hbefore : s'.before = s.before) : Onward s s' :=
  ⟨[], hrest.symm, hbefore, Nat.zero_le _⟩

theorem Ahead.trans (h : Ahead n s s') (h' : Ahead m s' s'') : Ahead (n + m) s s'' := by
  obtain ⟨p, hrest, hbefore, hlength⟩ := h
  obtain ⟨p', hrest', hbefore', hlength'⟩ := h'
  refine ⟨p ++ p', by rw [hrest, hrest', List.append_assoc], ?_, ?_⟩
  · rw [hbefore', hbefore, List.reverse_append, List.append_assoc]
  · rw [List.length_append]
    exact Nat.add_le_add hlength hlength'

theorem Ahead.le (h : Ahead n s s') (hle : m ≤ n) : Ahead m s s' := by
  obtain ⟨p, hrest, hbefore, hlength⟩ := h
  exact ⟨p, hrest, hbefore, Nat.le_trans hle hlength⟩

theorem Ahead.onward (h : Ahead n s s') : Onward s s' := h.le (Nat.zero_le n)

theorem Onward.trans (h : Onward s s') (h' : Onward s' s'') : Onward s s'' := Ahead.trans h h'

theorem Ahead.then_onward (h : Ahead n s s') (h' : Onward s' s'') : Ahead n s s'' := Ahead.trans h h'

theorem Onward.then_ahead (h : Onward s s') (h' : Ahead n s' s'') : Ahead n s s'' := (Ahead.trans h h').le (by omega)

theorem Ahead.length_le (h : Ahead n s s') : s'.rest.length + n ≤ s.rest.length := by
  obtain ⟨p, hrest, -, hlength⟩ := h
  rw [hrest, List.length_append]
  omega

/-- A byte that has been read. -/
theorem Ahead.read {before rest : Bytes} : Ahead 1 (ready before (c :: rest)) (ready (c :: before) rest) :=
  ⟨[c], rfl, rfl, Nat.le_refl _⟩

/-- Putting a byte back undoes at most one step. -/
theorem Ahead.putback (h : Ahead (n + 1) s s') : Ahead n s (s'.putback ch) := by
  unfold IStream.putback
  split
  · exact h.le (Nat.le_succ n)
  · split
    · next b before hbefore =>
      split
      · obtain ⟨p, hrest, hp, hlength⟩ := h
        rcases p.eq_nil_or_concat with rfl | ⟨q, b', rfl⟩
        · exact absurd hlength (Nat.not_succ_le_zero n)
        · rw [List.concat_eq_append, List.reverse_append, hbefore] at hp
          obtain ⟨rfl, hq⟩ := List.cons.inj hp
          refine ⟨q, by rw [hrest, List.concat_eq_append, List.append_assoc]; rfl, hq, ?_⟩
          rw [List.length_concat] at hlength
          exact Nat.le_of_succ_le_succ hlength
      · exact h.le (Nat.le_succ n)
    · exact h.le (Nat.le_succ n)

theorem putback_fail (ch : UInt8) (h : s.fail = true) : (s.putback ch).fail = true ∧ Onward s (s.putback ch) := by
  rw [IStream.putback, if_pos h]
  exact ⟨h, Onward.of_eq rfl rfl⟩

/-! ### What the functions of the stream do to its position -/

theorem skipWhile_onward {p : UInt8 → Bool} {before rest : Bytes} {e f : Bool} :
    Onward ⟨before, rest, e, f⟩ (skipWhile p before rest) := by
  have h : Onward (ready before rest) (skipWhile p before rest) := by
    induction rest generalizing before with
    | nil => exact Onward.refl _
    | cons b rest ih =>
      rw [skipWhile]
      split
      · exact (Ahead.read.then_onward ih).onward
      · exact Onward.refl _
  exact (Onward.of_eq rfl rfl).trans h

theorem ws_onward : Onward s s.ws := by
  rw [ws]
  split
  · dsimp only
    split
    · exact skipWhile_onward.trans (Onward.of_eq rfl rfl)
    · exact skipWhile_onward
  · exact Onward.of_eq rfl rfl

theorem peek_onward : Onward s s.peek.2 := by
  rw [peek]
  split
  · split <;> exact Onward.of_eq rfl rfl
  · exact Onward.of_eq rfl rfl

/-- A byte is read, or there is none and the stream fails. -/
theorem get_cases (s : IStream) (ch : UInt8) :
    (∃ b before rest, s = ready before (b :: rest) ∧ s.get ch = (b, ready (b :: before) rest)) ∨
      ∃ s', s.get ch = (ch, s') ∧ s'.fail = true ∧ Onward s s' := by
  obtain ⟨before, rest, eof, fail⟩ := s
  cases eof with
  | true => exact .inr ⟨_, rfl, rfl, Onward.of_eq rfl rfl⟩
  | false =>
    cases fail with
    | true => exact .inr ⟨_, rfl, rfl, Onward.of_eq rfl rfl⟩
    | false =>
      cases rest with
      | nil => exact .inr ⟨_, rfl, rfl, Onward.of_eq rfl rfl⟩
      | cons b rest => exact .inl ⟨b, before, rest, rfl, rfl⟩

theorem get_onward : Onward s (s.get ch).2 := by
  rcases get_cases s ch with ⟨b, before, rest, rfl, hget⟩ | ⟨s', hget, -, h⟩
  · rw [hget]
    exact Ahead.read.onward
  · rw [hget]
    exact h

/-! ### Matching -/

theorem skipLine_onward : Onward s (skipLine s) := by
  unfold skipLine
  dsimp only
  split
  · exact skipWhile_onward.trans (Onward.of_eq rfl rfl)
  · exact skipWhile_onward.trans ws_onward

/-- A comment begins here and is skipped, or nothing is read. -/
theorem parseComment_cases (s : IStream) :
    (∃ before rest s', s = ready before (slash :: rest) ∧ parseComment s = (true, s') ∧ Ahead 2 s s') ∨
      ∃ s', parseComment s = (false, s') ∧ Onward s s' ∧ (s.fail = true → s'.fail = true) := by
  obtain ⟨before, rest, eof, fail⟩ := s
  cases eof with
  | true => exact .inr ⟨_, rfl, Onward.refl _, id⟩
  | false =>
    cases fail with
    | true => exact .inr ⟨_, rfl, Onward.of_eq rfl rfl, fun _ => rfl⟩
    | false =>
      match rest with
      | [] => exact .inr ⟨_, rfl, Onward.of_eq rfl rfl, id⟩
      | b :: rest =>
        by_cases hb : b = slash
        · subst hb
          match rest with
          | [] => exact .inr ⟨_, rfl, Onward.of_eq rfl rfl, id⟩
          | b' :: rest =>
            by_cases hb' : b' = slash
            · subst hb'
              have hread : Ahead 2 (ready before (slash :: slash :: rest)) (ready (slash :: slash :: before) rest) :=
                Ahead.read.trans Ahead.read
              exact .inl ⟨before, slash :: rest, _, rfl, rfl, hread.then_onward skipLine_onward⟩
            · refine .inr ⟨ready before (slash :: b' :: rest), ?_, Onward.refl _, id⟩
              have hpair : ¬(slash = slash ∧ b' = slash) := fun h => hb' h.2
              exact if_neg hpair
        · refine .inr ⟨ready before (b :: rest), ?_, Onward.refl _, id⟩
          have hnext : ¬some b = some slash := fun h => hb (Option.some.inj h)
          exact if_neg hnext

theorem foldl_putback_onward {done : Bytes} (h : Onward s s') (hdone : s'.fail = true ∨ Ahead done.length s s') :
    Onward s (done.foldl putback s') := by
  induction done generalizing s' with
  | nil => exact h
  | cons ch done ih =>
    rcases hdone with hfail | hahead
    · obtain ⟨hfail', hback⟩ := putback_fail ch hfail
      exact ih (h.trans hback) (.inl hfail')
    · have hback : Ahead done.length s (s'.putback ch) := hahead.putback
      exact ih hback.onward (.inr hback)

/-- What has been matched so far has been read, except where the stream has failed. -/
theorem matchLoop_onward {fuel : Nat} {done todo : Bytes} (h : Onward s s')
    (hdone : s'.fail = true ∨ Ahead done.length s s') : Onward s (matchLoop fuel ch done todo s').2 := by
  induction fuel generalizing ch done todo s' with
  | zero => cases todo <;> exact h
  | succ fuel ih =>
    cases todo with
    | nil => exact h
    | cons cur todo =>
      rw [matchLoop]
      split
      · rcases get_cases s' ch with ⟨b, before, rest, rfl, hget⟩ | ⟨s₁, hget, hfail, hahead⟩
        · have hdone : Ahead done.length s (ready before (b :: rest)) := hdone.resolve_left Bool.false_ne_true
          rw [hget]
          dsimp only
          split
          · -- The byte is put back, and a comment may begin with it.
            have hback : (ready (b :: before) rest).putback b = ready before (b :: rest) := if_pos rfl
            rw [hback]
            rcases parseComment_cases (ready before (b :: rest)) with ⟨_, _, s₂, -, hcomment, hahead⟩ |
              ⟨s₂, hcomment, hsame, -⟩
            · rw [hcomment]
              exact ih (h.trans hahead.onward) (.inr (hdone.then_onward hahead.onward))
            · rw [hcomment]
              exact foldl_putback_onward (h.trans hsame) (.inr (hdone.then_onward hsame))
          · exact ih (h.trans Ahead.read.onward) (.inr (hdone.trans Ahead.read))
        · rw [hget]
          dsimp only
          split
          · obtain ⟨hfail', hback⟩ := putback_fail ch hfail
            rcases parseComment_cases (s₁.putback ch) with ⟨before, rest, _, heq, -⟩ | ⟨s₂, hcomment, hsame, hfail''⟩
            · rw [heq] at hfail'
              cases hfail'
            · rw [hcomment]
              exact foldl_putback_onward ((h.trans hahead).trans (hback.trans hsame)) (.inl (hfail'' hfail'))
          · exact ih (h.trans hahead) (.inl hfail)
      · exact h

theorem matchPattern_onward {pattern : Bytes} : Onward s (matchPattern pattern s).2 :=
  ws_onward.trans (matchLoop_onward (Onward.refl _) (.inr (Onward.refl _)))

/-- Before the first character is matched, the variable holds nothing that the pattern could begin with. -/
theorem matchLoop_ahead {fuel : Nat} {cur : UInt8} (hzero : cur ≠ 0) (hslash : cur ≠ slash) (hch : ch = 0 ∨ ch = slash)
    (h : (matchLoop fuel ch [] [cur] s).1 = true) : Ahead 1 s (matchLoop fuel ch [] [cur] s).2 := by
  induction fuel generalizing ch s with
  | zero => cases h
  | succ fuel ih =>
    rw [matchLoop] at h ⊢
    split at h
    · next hgood =>
      rw [if_pos hgood]
      rcases get_cases s ch with ⟨b, before, rest, rfl, hget⟩ | ⟨s₁, hget, hfail, hahead⟩
      · rw [hget] at h ⊢
        dsimp only at h ⊢
        split at h
        · next hne =>
          have hback : (ready (b :: before) rest).putback b = ready before (b :: rest) := if_pos rfl
          rw [if_pos hne]
          rw [hback] at h ⊢
          -- The byte is no match and is put back: it begins a comment, which is skipped, or the match fails.
          rcases parseComment_cases (ready before (b :: rest)) with ⟨_, _, s₂, heq, hcomment, hahead⟩ |
            ⟨s₂, hcomment, -⟩
          · rw [hcomment] at h ⊢
            cases heq
            exact hahead.onward.then_ahead (ih (.inr rfl) h)
          · rw [hcomment] at h
            cases h
        · next heq =>
          rw [if_neg heq]
          cases fuel <;> exact Ahead.read
      -- Nothing is left, so `ch` keeps its value, which does not match; there is no comment either.
      · have hne : ch ≠ cur := by
          rcases hch with rfl | rfl
          · exact hzero.symm
          · exact hslash.symm
        obtain ⟨hfail', hback⟩ := putback_fail ch hfail
        rw [hget] at h
        dsimp only at h
        rw [if_pos hne] at h
        rcases parseComment_cases (s₁.putback ch) with ⟨before, rest, _, heq, -⟩ | ⟨s₂, hcomment, -⟩
        · rw [heq] at hfail'
          cases hfail'
        · rw [hcomment] at h
          cases h
    · cases h

theorem matchPattern_ahead {cur : UInt8} (hzero : cur ≠ 0) (hslash : cur ≠ slash)
    (h : (matchPattern [cur] s).1 = true) : Ahead 1 s (matchPattern [cur] s).2 :=
  ws_onward.then_ahead (matchLoop_ahead hzero hslash (.inl rfl) h)

/-! ### The loops have enough rounds -/

theorem matchLoop_dead {fuel : Nat} {done todo : Bytes} (h : s.good = false) :
    matchLoop fuel ch done todo s = (todo.isEmpty, s) := by
  cases todo with
  | nil => cases fuel <;> rfl
  | cons cur todo =>
    cases fuel with
    | zero => rfl
    | succ fuel =>
      rw [matchLoop, h]
      rfl

theorem good_iff : s.good = true ↔ s.eof = false ∧ s.fail = false := by
  rw [good, Bool.and_eq_true, Bool.not_eq_true', Bool.not_eq_true']

theorem not_good_of_fail (h : s.fail = true) : s.good = false := by
  rw [good, h, Bool.not_true, Bool.and_false]

/-- More rounds than bytes make no difference. -/
theorem matchLoop_rounds {fuel fuel' : Nat} {done todo : Bytes} (h : s.rest.length < fuel)
    (h' : s.rest.length < fuel') :
    matchLoop fuel ch done todo s = matchLoop fuel' ch done todo s := by
  induction fuel generalizing fuel' ch done todo s with
  | zero => exact absurd h (Nat.not_lt_zero _)
  | succ fuel ih =>
    obtain ⟨fuel', rfl⟩ := Nat.exists_eq_succ_of_ne_zero (Nat.ne_of_gt (Nat.zero_lt_of_lt h'))
    cases todo with
    | nil => rfl
    | cons cur todo =>
      rw [matchLoop, matchLoop]
      -- A round that goes on has read a byte or a whole comment; without a byte the stream is dead.
      rcases get_cases s ch with ⟨b, before, rest, rfl, hget⟩ | ⟨s₁, hget, hfail, -⟩
      · rw [hget]
        dsimp only
        have hback : (ready (b :: before) rest).putback b = ready before (b :: rest) := if_pos rfl
        have hrest : rest.length < fuel := Nat.lt_of_succ_lt_succ h
        have hrest' : rest.length < fuel' := Nat.lt_of_succ_lt_succ h'
        rw [hback]
        rcases parseComment_cases (ready before (b :: rest)) with ⟨_, _, s₂, -, hcomment, hahead⟩ | ⟨s₂, hcomment, -⟩
        · have hlength : s₂.rest.length + 2 ≤ (b :: rest).length := hahead.length_le
          rw [List.length_cons] at hlength
          rw [hcomment]
          dsimp only
          rw [if_pos rfl, if_pos rfl, @ih s₂ b fuel' _ _ (by omega) (by omega),
            @ih (ready (b :: before) rest) b fuel' _ _ hrest hrest']
        · rw [hcomment, @ih (ready (b :: before) rest) b fuel' _ _ hrest hrest']
          rfl
      · rw [hget]
        dsimp only
        rw [matchLoop_dead (not_good_of_fail hfail), matchLoop_dead (not_good_of_fail hfail)]
        obtain ⟨hfail', -⟩ := putback_fail ch hfail
        rcases parseComment_cases (s₁.putback ch) with ⟨before, rest, _, heq, -⟩ | ⟨s₂, hcomment, -⟩
        · rw [heq] at hfail'
          cases hfail'
        · rw [hcomment]
          rfl

theorem getFour_onward {n : Nat} {ss : Bytes} : Onward s (getFour n ch ss s).2.2 := by
  induction n generalizing ch ss s with
  | zero => exact Onward.refl _
  | succ n ih =>
    rw [getFour]
    split
    · exact get_onward.trans ih
    · exact Onward.refl _

theorem escape_onward {delimiter : UInt8} : Onward s (escape delimiter ch s).2.2 := by
  unfold escape
  split
  · exact getFour_onward
  · split_ifs <;> exact Onward.refl _

theorem stringLoop_onward {delimiter : UInt8} {fuel : Nat} {value : Bytes} :
    Onward s (stringLoop delimiter fuel ch value s).2.2 := by
  induction fuel generalizing ch value s with
  | zero => exact Onward.refl _
  | succ fuel ih =>
    rw [stringLoop]
    split
    · dsimp only
      split_ifs
      · exact get_onward
      · exact get_onward.trans (get_onward.trans (escape_onward.trans ih))
      · exact get_onward.trans ih
    · exact Onward.refl _

theorem stringLoop_dead {delimiter : UInt8} {fuel : Nat} {value : Bytes} (h : s.good = false) :
    stringLoop delimiter fuel ch value s = (ch, value, s) := by
  cases fuel with
  | zero => rfl
  | succ fuel =>
    rw [stringLoop, h]
    rfl

theorem get_fail (h : s.fail = true) : (s.get ch).2.fail = true := by
  rcases get_cases s ch with ⟨b, before, rest, rfl, -⟩ | ⟨s', hget, hfail, -⟩
  · cases h
  · rw [hget]
    exact hfail

theorem escape_fail {delimiter : UInt8} (h : s.fail = true) : (escape delimiter ch s).2.2.fail = true := by
  unfold escape
  split
  · rw [getFour, if_neg (Bool.not_eq_true _ ▸ not_good_of_fail h)]
    exact h
  · split_ifs <;> exact h

theorem stringLoop_rounds {delimiter : UInt8} {fuel fuel' : Nat} {value : Bytes} (h : s.rest.length < fuel)
    (h' : s.rest.length < fuel') : stringLoop delimiter fuel ch value s = stringLoop delimiter fuel' ch value s := by
  induction fuel generalizing fuel' ch value s with
  | zero => exact absurd h (Nat.not_lt_zero _)
  | succ fuel ih =>
    obtain ⟨fuel', rfl⟩ := Nat.exists_eq_succ_of_ne_zero (Nat.ne_of_gt (Nat.zero_lt_of_lt h'))
    -- After a byte there are fewer of them left; where there is none the stream is dead.
    have hnext {s' : IStream} {ch : UInt8} {value : Bytes} (hs' : s'.fail = true ∨ s'.rest.length < s.rest.length) :
        stringLoop delimiter fuel ch value s' = stringLoop delimiter fuel' ch value s' := by
      rcases hs' with hfail | hlength
      · rw [stringLoop_dead (not_good_of_fail hfail), stringLoop_dead (not_good_of_fail hfail)]
      · exact ih (by omega) (by omega)
    have hget : (s.get ch).2.fail = true ∨ (s.get ch).2.rest.length < s.rest.length := by
      rcases get_cases s ch with ⟨b, before, rest, rfl, hget⟩ | ⟨s₁, hget, hfail, -⟩
      · rw [hget]
        exact .inr (Nat.lt_succ_self _)
      · rw [hget]
        exact .inl hfail
    have hescape :
        (escape delimiter ((s.get ch).2.get (s.get ch).1).1 ((s.get ch).2.get (s.get ch).1).2).2.2.fail = true ∨
        (escape delimiter ((s.get ch).2.get (s.get ch).1).1 ((s.get ch).2.get (s.get ch).1).2).2.2.rest.length <
          s.rest.length := by
      rcases hget with hfail | hlength
      · exact .inl (escape_fail (get_fail hfail))
      · refine .inr (Nat.lt_of_le_of_lt ?_ hlength)
        exact (get_onward.trans escape_onward).length_le
    rw [stringLoop, stringLoop]
    dsimp only
    rw [hnext hget, hnext hescape]

/-! ### Scalars -/

theorem parseDelimited_onward {delimiter : UInt8} : Onward s (parseDelimited delimiter ch s).2 := by
  unfold parseDelimited
  exact stringLoop_onward

theorem parseString_onward : Onward s (parseString s).2 := by
  have hmatch : Onward s (matchPattern [quote] s).2 := matchPattern_onward
  unfold parseString
  split
  · next s' heq =>
    rw [heq] at hmatch
    exact hmatch.trans parseDelimited_onward
  · next s' heq =>
    rw [heq] at hmatch
    dsimp only
    split
    · exact hmatch.trans (peek_onward.trans (get_onward.trans parseDelimited_onward))
    · exact hmatch.trans peek_onward

variable {ν : Type u} {N : NumberFormat ν}

theorem extract_onward : Onward s (extract N s).2 := by
  have hws : Onward s s.ws := ws_onward
  unfold extract
  dsimp only
  split
  · split
    · next x rest hread =>
      obtain ⟨b, p, hp⟩ := N.read_suffix hread
      have htaken : s.ws.rest.take (s.ws.rest.length - rest.length) = b :: p := by
        rw [hp, List.length_append, Nat.add_sub_cancel, List.take_left]
      refine hws.trans ⟨b :: p, hp, ?_, Nat.zero_le _⟩
      dsimp only
      rw [htaken]
    · exact hws.trans (Onward.of_eq rfl rfl)
  · exact hws.trans (Onward.of_eq rfl rfl)

/-- The roll back goes to where the white space ends. -/
theorem parseNumber_onward : Onward s (parseNumber N s).2 := by
  have hws : Onward s s.ws := ws_onward
  have htell : Onward s s.ws.tellg.2 := hws.trans (Onward.of_eq rfl rfl)
  have hextract : Onward s (extract N s.ws.tellg.2).2 := htell.trans extract_onward
  unfold parseNumber
  dsimp only
  split
  · next x s' heq =>
    rw [heq] at hextract
    exact hextract
  · next s' heq =>
    rw [heq] at hextract
    unfold tellg
    dsimp only
    split
    · exact hextract.trans (Onward.of_eq rfl rfl)
    · exact hws.trans (Onward.of_eq rfl rfl)

theorem parseBool_onward : Onward s (parseBool s).2 := by
  have htrue : Onward s (matchPattern trueText s).2 := matchPattern_onward
  unfold parseBool
  split
  · next s' heq =>
    rw [heq] at htrue
    exact htrue
  · next s' heq =>
    rw [heq] at htrue
    have hfalse : Onward s (matchPattern falseText s').2 := htrue.trans matchPattern_onward
    split
    · next s'' heq' =>
      rw [heq'] at hfalse
      exact hfalse
    · next s'' heq' =>
      rw [heq'] at hfalse
      exact hfalse

theorem parseNull_onward : Onward s (parseNull s).2 := by
  have hnull : Onward s (matchPattern nullText s).2 := matchPattern_onward
  unfold parseNull
  split
  · next s' heq =>
    rw [heq] at hnull
    exact hnull
  · next s' heq =>
    rw [heq] at hnull
    exact hnull.trans peek_onward

theorem parseScalar_onward : Onward s (parseScalar N s).2 := by
  have hstring : Onward s (parseString s).2 := parseString_onward
  unfold parseScalar
  split
  · next t s₁ h₁ =>
    rw [h₁] at hstring
    exact hstring
  · next s₁ h₁ =>
    rw [h₁] at hstring
    have hnumber : Onward s (parseNumber N s₁).2 := hstring.trans parseNumber_onward
    split
    · next x s₂ h₂ =>
      rw [h₂] at hnumber
      exact hnumber
    · next s₂ h₂ =>
      rw [h₂] at hnumber
      have hbool : Onward s (parseBool s₂).2 := hnumber.trans parseBool_onward
      split
      · next b s₃ h₃ =>
        rw [h₃] at hbool
        exact hbool
      · next s₃ h₃ =>
        rw [h₃] at hbool
        have hnull : Onward s (parseNull s₃).2 := hbool.trans parseNull_onward
        split
        · next s₄ h₄ =>
          rw [h₄] at hnull
          exact hnull
        · next s₄ h₄ =>
          rw [h₄] at hnull
          exact hnull

/-! ### Arrays and objects -/

/-- From some fuel on there is a result, always the same one, and the stream has moved on. -/
def Ends {α : Type v} (stream : α → IStream) (s : IStream) (need : Nat) (f : Nat → Option α) : Prop :=
  ∃ r, Onward s (stream r) ∧ ∀ fuel, need ≤ fuel → f fuel = some r

/-- A function that has its result at once. -/
theorem Ends.here {α : Type v} {stream : α → IStream} {need : Nat} {f : Nat → Option α} (r : α)
    (hr : Onward s (stream r)) (hneed : 1 ≤ need) (hf : ∀ fuel, f (fuel + 1) = some r) : Ends stream s need f := by
  refine ⟨r, hr, fun fuel hfuel => ?_⟩
  obtain ⟨fuel, rfl⟩ := Nat.exists_eq_add_of_le' (show 1 ≤ fuel by omega)
  exact hf fuel

/-- The loop over the elements of an array ends from here, whatever has been read before. -/
def ElementsEnd (N : NumberFormat ν) (s : IStream) : Prop :=
  ∀ xs, Ends Prod.snd s (3 * s.rest.length + 4) fun fuel => parseElements N fuel xs s

/-- The loop over the members of an object ends from here. -/
def MembersEnd (N : NumberFormat ν) (s : IStream) : Prop :=
  ∀ fields, Ends (fun r => r.2.2) s (3 * s.rest.length + 4) fun fuel => parseMembers N fuel fields s

theorem parseArray_ends (h : ∀ s', s'.rest.length < s.rest.length → ElementsEnd N s') :
    Ends Prod.snd s (3 * s.rest.length + 2) fun fuel => parseArray N fuel s := by
  have hopen : Onward s (matchPattern [openBracket] s).2 := matchPattern_onward
  -- Without the opening bracket there is no recursion.
  rcases hmatch : matchPattern [openBracket] s with ⟨_ | _, s₁⟩
  · rw [hmatch] at hopen
    exact Ends.here (none, s₁) hopen (by omega) fun fuel => by rw [parseArray, hmatch]
  · have hread : Ahead 1 s (matchPattern [openBracket] s).2 :=
      matchPattern_ahead (by decide) (by decide) (by rw [hmatch])
    have hclose : Onward s₁ (matchPattern [closeBracket] s₁).2 := matchPattern_onward
    rw [hmatch] at hopen hread
    dsimp only at hopen hread
    -- It has been read, so fewer bytes are left for the elements.
    rcases hmatch' : matchPattern [closeBracket] s₁ with ⟨_ | _, s₂⟩
    · rw [hmatch'] at hclose
      dsimp only at hclose
      have hlength : s₂.rest.length + 1 ≤ s.rest.length := (hread.then_onward hclose).length_le
      obtain ⟨⟨xs, s₃⟩, hs₃, hf⟩ := h s₂ hlength []
      dsimp only at hs₃ hf
      have hend : Onward s₃ (matchPattern [closeBracket] s₃).2 := matchPattern_onward
      rcases hmatch₃ : matchPattern [closeBracket] s₃ with ⟨ok, s₄⟩
      rw [hmatch₃] at hend
      refine ⟨(if ok then some xs else none, s₄), ((hopen.trans hclose).trans hs₃).trans hend, fun fuel hfuel => ?_⟩
      obtain ⟨fuel, rfl⟩ := Nat.exists_eq_add_of_le' (show 1 ≤ fuel by omega)
      dsimp only
      rw [parseArray, hmatch]
      dsimp only
      rw [hmatch']
      dsimp only
      rw [hf fuel (by omega), Option.map_some]
      dsimp only
      rw [hmatch₃]
    · rw [hmatch'] at hclose
      dsimp only at hclose
      refine Ends.here (some [], s₂) (hopen.trans hclose) (by omega) fun fuel => ?_
      rw [parseArray, hmatch]
      dsimp only
      rw [hmatch']

theorem parseObject_ends (h : ∀ s', s'.rest.length < s.rest.length → MembersEnd N s') :
    Ends (fun r => r.2.2) s (3 * s.rest.length + 2) fun fuel => parseObject N fuel s := by
  have hopen : Onward s (matchPattern [openBrace] s).2 := matchPattern_onward
  -- Without the opening brace there is no recursion.
  rcases hmatch : matchPattern [openBrace] s with ⟨_ | _, s₁⟩
  · rw [hmatch] at hopen
    exact Ends.here (false, [], s₁) hopen (by omega) fun fuel => by rw [parseObject, hmatch]
  · have hread : Ahead 1 s (matchPattern [openBrace] s).2 :=
      matchPattern_ahead (by decide) (by decide) (by rw [hmatch])
    have hclose : Onward s₁ (matchPattern [closeBrace] s₁).2 := matchPattern_onward
    rw [hmatch] at hopen hread
    dsimp only at hopen hread
    -- It has been read, so fewer bytes are left for the members.
    rcases hmatch' : matchPattern [closeBrace] s₁ with ⟨_ | _, s₂⟩
    · rw [hmatch'] at hclose
      dsimp only at hclose
      have hlength : s₂.rest.length + 1 ≤ s.rest.length := (hread.then_onward hclose).length_le
      obtain ⟨⟨ok, fields, s₃⟩, hs₃, hf⟩ := h s₂ hlength []
      dsimp only at hs₃ hf
      have hmoved : Onward s s₃ := (hopen.trans hclose).trans hs₃
      have hend : Onward s₃ (matchPattern [closeBrace] s₃).2 := matchPattern_onward
      rcases hmatch₃ : matchPattern [closeBrace] s₃ with ⟨ok', s₄⟩
      rw [hmatch₃] at hend
      refine ⟨if ok then (ok', fields, s₄) else (false, fields, s₃), ?_, fun fuel hfuel => ?_⟩
      -- Only after members without a failure does it look for the closing brace.
      · cases ok
        · exact hmoved
        · exact hmoved.trans hend
      · obtain ⟨fuel, rfl⟩ := Nat.exists_eq_add_of_le' (show 1 ≤ fuel by omega)
        dsimp only
        rw [parseObject, hmatch]
        dsimp only
        rw [hmatch']
        dsimp only
        rw [hf fuel (by omega), Option.map_some]
        dsimp only
        rw [hmatch₃]
    · rw [hmatch'] at hclose
      dsimp only at hclose
      refine Ends.here (true, [], s₂) (hopen.trans hclose) (by omega) fun fuel => ?_
      rw [parseObject, hmatch]
      dsimp only
      rw [hmatch']

theorem parseValue_ends (h : ∀ s', s'.rest.length < s.rest.length → ElementsEnd N s' ∧ MembersEnd N s') :
    Ends Prod.snd s (3 * s.rest.length + 3) fun fuel => parseValue N fuel s := by
  have hscalar : Onward s (parseScalar N s).2 := parseScalar_onward
  rcases hv : parseScalar N s with ⟨_ | v, s₁⟩
  · rw [hv] at hscalar
    have hpeek : Onward s₁ s₁.peek.2 := peek_onward
    rcases hnext : s₁.peek with ⟨next, s₂⟩
    rw [hnext] at hpeek
    have hs₂ : Onward s s₂ := hscalar.trans hpeek
    have hlength : s₂.rest.length ≤ s.rest.length := hs₂.length_le
    -- `Object::parse` is what is tried last, on any stream that has not gone back.
    have hobject {s' : IStream} (hs' : Onward s s') : ∃ r : Option (Value ν) × IStream, Onward s r.2 ∧
        ∀ fuel, 3 * s.rest.length + 2 ≤ fuel → ((parseObject N fuel s').map fun o =>
          (if o.1 then some (Value.object o.2.1) else none, o.2.2)) = some r := by
      have hlength : s'.rest.length ≤ s.rest.length := hs'.length_le
      obtain ⟨⟨ok, fields, s₃⟩, hs₃, hf⟩ := parseObject_ends (N := N) (s := s') fun s'' hs'' => (h s'' (by omega)).2
      dsimp only at hs₃ hf
      refine ⟨(if ok then some (Value.object fields) else none, s₃), hs'.trans hs₃, fun fuel hfuel => ?_⟩
      rw [hf fuel (by omega)]
      rfl
    by_cases hbracket : next = some openBracket
    · obtain ⟨⟨xs, s₃⟩, hs₃, hf⟩ := parseArray_ends (N := N) (s := s₂) fun s'' hs'' => (h s'' (by omega)).1
      dsimp only at hs₃ hf
      cases xs with
      | some xs =>
        refine ⟨(some (.array xs), s₃), hs₂.trans hs₃, fun fuel hfuel => ?_⟩
        obtain ⟨fuel, rfl⟩ := Nat.exists_eq_add_of_le' (show 1 ≤ fuel by omega)
        dsimp only
        rw [parseValue, hv]
        dsimp only
        rw [hnext]
        dsimp only
        rw [if_pos hbracket, hf fuel (by omega)]
      | none =>
        obtain ⟨r, hr, hf'⟩ := hobject (hs₂.trans hs₃)
        refine ⟨r, hr, fun fuel hfuel => ?_⟩
        obtain ⟨fuel, rfl⟩ := Nat.exists_eq_add_of_le' (show 1 ≤ fuel by omega)
        dsimp only
        rw [parseValue, hv]
        dsimp only
        rw [hnext]
        dsimp only
        rw [if_pos hbracket, hf fuel (by omega)]
        exact hf' fuel (by omega)
    · obtain ⟨r, hr, hf'⟩ := hobject hs₂
      refine ⟨r, hr, fun fuel hfuel => ?_⟩
      obtain ⟨fuel, rfl⟩ := Nat.exists_eq_add_of_le' (show 1 ≤ fuel by omega)
      dsimp only
      rw [parseValue, hv]
      dsimp only
      rw [hnext]
      dsimp only
      rw [if_neg hbracket]
      exact hf' fuel (by omega)
  · rw [hv] at hscalar
    exact Ends.here (some v, s₁) hscalar (by omega) fun fuel => by rw [parseValue, hv]

/-- One round of the loop; what follows the comma is shorter. -/
theorem parseElements_ends (h : ∀ s', s'.rest.length < s.rest.length → ElementsEnd N s' ∧ MembersEnd N s') :
    ElementsEnd N s := by
  intro xs
  obtain ⟨⟨v, s₁⟩, hs₁, hf⟩ := parseValue_ends h
  dsimp only at hs₁ hf
  have hcomma : Onward s₁ (matchPattern [comma] s₁).2 := matchPattern_onward
  cases v with
  | none =>
    refine ⟨(xs, s₁), hs₁, fun fuel hfuel => ?_⟩
    obtain ⟨fuel, rfl⟩ := Nat.exists_eq_add_of_le' (show 1 ≤ fuel by omega)
    dsimp only
    rw [parseElements, hf fuel (by omega)]
  | some v =>
    rcases hmatch : matchPattern [comma] s₁ with ⟨_ | _, s₂⟩
    · rw [hmatch] at hcomma
      refine ⟨(xs ++ [v], s₂), hs₁.trans hcomma, fun fuel hfuel => ?_⟩
      obtain ⟨fuel, rfl⟩ := Nat.exists_eq_add_of_le' (show 1 ≤ fuel by omega)
      dsimp only
      rw [parseElements, hf fuel (by omega)]
      dsimp only
      rw [hmatch]
    · have hread : Ahead 1 s₁ (matchPattern [comma] s₁).2 :=
        matchPattern_ahead (by decide) (by decide) (by rw [hmatch])
      rw [hmatch] at hcomma hread
      have hlength : s₂.rest.length + 1 ≤ s.rest.length := (hs₁.then_ahead hread).length_le
      obtain ⟨r, hr, hf'⟩ := (h s₂ hlength).1 (xs ++ [v])
      refine ⟨r, (hs₁.trans hcomma).trans hr, fun fuel hfuel => ?_⟩
      obtain ⟨fuel, rfl⟩ := Nat.exists_eq_add_of_le' (show 1 ≤ fuel by omega)
      dsimp only
      rw [parseElements, hf fuel (by omega)]
      dsimp only
      rw [hmatch]
      exact hf' fuel (by omega)

theorem parseMembers_ends (h : ∀ s', s'.rest.length < s.rest.length → ElementsEnd N s' ∧ MembersEnd N s') :
    MembersEnd N s := by
  intro fields
  have hstring : Onward s (parseString s).2 := parseString_onward
  rcases hkey : parseString s with ⟨_ | key, s₁⟩
  · rw [hkey] at hstring
    refine Ends.here (s₁.peek.1 = some closeBrace, fields, s₁.peek.2) (hstring.trans peek_onward) (by omega)
      fun fuel => ?_
    rw [parseMembers, hkey]
  · rw [hkey] at hstring
    have hcolon : Onward s₁ (matchPattern [colon] s₁).2 := matchPattern_onward
    rcases hmatch : matchPattern [colon] s₁ with ⟨_ | _, s₂⟩
    · rw [hmatch] at hcolon
      refine Ends.here (false, fields, s₂) (hstring.trans hcolon) (by omega) fun fuel => ?_
      rw [parseMembers, hkey]
      dsimp only
      rw [hmatch]
    · rw [hmatch] at hcolon
      have hs₂ : Onward s s₂ := hstring.trans hcolon
      have hlength₂ : s₂.rest.length ≤ s.rest.length := hs₂.length_le
      obtain ⟨⟨v, s₃⟩, hs₃, hf⟩ := parseValue_ends (N := N) (s := s₂) fun s' hs' => h s' (by omega)
      dsimp only at hs₃ hf
      have hcomma : Onward s₃ (matchPattern [comma] s₃).2 := matchPattern_onward
      cases v with
      | none =>
        refine ⟨(true, fields, s₃), hs₂.trans hs₃, fun fuel hfuel => ?_⟩
        obtain ⟨fuel, rfl⟩ := Nat.exists_eq_add_of_le' (show 1 ≤ fuel by omega)
        dsimp only
        rw [parseMembers, hkey]
        dsimp only
        rw [hmatch]
        dsimp only
        rw [hf fuel (by omega)]
      | some v =>
        -- With the member read, the rounds differ in what follows it only.
        have hmember (fuel : Nat) (hfuel : 3 * s.rest.length + 4 ≤ fuel + 1) : parseMembers N (fuel + 1) fields s =
            if (matchPattern [comma] s₃).1 then
              parseMembers N fuel (SortedMap.store key v fields) (matchPattern [comma] s₃).2
            else some (true, SortedMap.store key v fields, (matchPattern [comma] s₃).2) := by
          rw [parseMembers, hkey]
          dsimp only
          rw [hmatch]
          dsimp only
          rw [hf fuel (by omega)]
          dsimp only
          rcases matchPattern [comma] s₃ with ⟨_ | _, s₄⟩
          · rfl
          · rfl
        rcases hmatch₃ : matchPattern [comma] s₃ with ⟨_ | _, s₄⟩
        · rw [hmatch₃] at hcomma
          refine ⟨(true, SortedMap.store key v fields, s₄), (hs₂.trans hs₃).trans hcomma, fun fuel hfuel => ?_⟩
          obtain ⟨fuel, rfl⟩ := Nat.exists_eq_add_of_le' (show 1 ≤ fuel by omega)
          refine (hmember fuel hfuel).trans ?_
          rw [hmatch₃]
          exact if_neg Bool.false_ne_true
        · have hread : Ahead 1 s₃ (matchPattern [comma] s₃).2 :=
            matchPattern_ahead (by decide) (by decide) (by rw [hmatch₃])
          rw [hmatch₃] at hcomma hread
          have hlength : s₄.rest.length + 1 ≤ s.rest.length := ((hs₂.trans hs₃).then_ahead hread).length_le
          obtain ⟨r, hr, hf'⟩ := (h s₄ hlength).2 (SortedMap.store key v fields)
          refine ⟨r, ((hs₂.trans hs₃).trans hcomma).trans hr, fun fuel hfuel => ?_⟩
          obtain ⟨fuel, rfl⟩ := Nat.exists_eq_add_of_le' (show 1 ≤ fuel by omega)
          refine (hmember fuel hfuel).trans ?_
          rw [hmatch₃]
          exact (if_pos rfl).trans (hf' fuel (by omega))

/-- By induction on what is left of the text. -/
theorem parse_ends (s : IStream) : ElementsEnd N s ∧ MembersEnd N s := by
  have hall (n : Nat) : ∀ s : IStream, s.rest.length < n → ElementsEnd N s ∧ MembersEnd N s := by
    induction n with
    | zero => exact fun s h => absurd h (Nat.not_lt_zero _)
    | succ n ih =>
      intro s h
      have hless : ∀ s', s'.rest.length < s.rest.length → ElementsEnd N s' ∧ MembersEnd N s' := fun s' hs' =>
        ih s' (by omega)
      exact ⟨parseElements_ends hless, parseMembers_ends hless⟩
  exact hall (s.rest.length + 1) s (Nat.lt_succ_self _)

theorem parseObject_isSome (s : IStream) : (parseObject N (3 * s.rest.length + 2) s).isSome := by
  obtain ⟨r, -, hf⟩ := parseObject_ends (N := N) (s := s) fun s' _ => (parse_ends s').2
  exact Option.isSome_of_eq_some (hf _ (Nat.le_refl _))

/-- `Object::parse` on a stream. -/
def parse (N : NumberFormat ν) (s : IStream) : Bool × Fields ν × IStream :=
  (parseObject N (3 * s.rest.length + 2) s).get (parseObject_isSome s)

theorem parse_eq {fuel : Nat} (h : 3 * s.rest.length + 2 ≤ fuel) : parseObject N fuel s = some (parse N s) := by
  obtain ⟨r, -, hf⟩ := parseObject_ends (N := N) (s := s) fun s' _ => (parse_ends s').2
  rw [parse, Option.get_of_eq_some _ (hf _ (Nat.le_refl _))]
  exact hf fuel h

theorem parseElements_isSome (s : IStream) : (parseElements N (3 * s.rest.length + 4) [] s).isSome := by
  obtain ⟨r, -, hf⟩ := (parse_ends (N := N) s).1 []
  exact Option.isSome_of_eq_some (hf _ (Nat.le_refl _))

/-- Any fuel that is enough gives the same elements. -/
theorem parseElements_get {fuel : Nat} {r : List (Value ν) × IStream} (h : 3 * s.rest.length + 4 ≤ fuel)
    (hr : parseElements N fuel [] s = some r) :
    (parseElements N (3 * s.rest.length + 4) [] s).get (parseElements_isSome s) = r := by
  obtain ⟨r', -, hf⟩ := (parse_ends (N := N) s).1 []
  refine (Option.get_of_eq_some _ (hf _ (Nat.le_refl _))).trans ?_
  exact Option.some.inj ((hf fuel h).symm.trans hr)

/-- What the array holds after `Array::parse`, whatever this returns. -/
def parseValues (N : NumberFormat ν) (s : IStream) : List (Value ν) :=
  match matchPattern [openBracket] s with
  | (false, _) => []
  | (true, s) =>
    match matchPattern [closeBracket] s with
    | (true, _) => []
    | (false, s) => ((parseElements N (3 * s.rest.length + 4) [] s).get (parseElements_isSome s)).1

/-! ### What is read is in order -/

theorem allNormal_append {xs : List (Value ν)} {v : Value ν} (h : AllNormal xs) (hv : v.IsNormal) :
    AllNormal (xs ++ [v]) := by
  induction xs with
  | nil => exact ⟨hv, trivial⟩
  | cons x xs ih => exact ⟨h.1, ih h.2⟩

theorem parseScalar_normal {v : Value ν} (h : parseScalar N s = (some v, s')) : v.IsNormal := by
  unfold parseScalar at h
  split at h
  · cases h
    trivial
  · split at h
    · cases h
      trivial
    · split at h
      · cases h
        trivial
      · split at h
        · cases h
          trivial
        · cases h

/-- With this fuel, values that are read are in order, and lists and maps that are, stay so. -/
structure KeepsOrder (N : NumberFormat ν) (fuel : Nat) : Prop where
  value : ∀ {s v s'}, parseValue N fuel s = some (some v, s') → v.IsNormal
  array : ∀ {s xs s'}, parseArray N fuel s = some (some xs, s') → AllNormal xs
  elements : ∀ {s xs xs' s'}, AllNormal xs → parseElements N fuel xs s = some (xs', s') → AllNormal xs'
  object : ∀ {s ok fields s'}, parseObject N fuel s = some (ok, fields, s') → (Value.object fields).IsNormal
  members : ∀ {s fields ok fields' s'}, (Value.object fields).IsNormal →
    parseMembers N fuel fields s = some (ok, fields', s') → (Value.object fields').IsNormal

theorem keepsOrder (fuel : Nat) : KeepsOrder N fuel := by
  induction fuel with
  | zero =>
    constructor <;> intros <;> rename_i h <;> cases h
  | succ fuel ih =>
    constructor
    case value =>
      intro s v s' h
      rw [parseValue] at h
      -- A value that is no scalar and no array can only be an object.
      have hobject {s₁ : IStream} (h : ((parseObject N fuel s₁).map fun o =>
          (if o.1 then some (Value.object o.2.1) else none, o.2.2)) = some (some v, s')) : v.IsNormal := by
        obtain ⟨⟨ok, fields, s₂⟩, hread, heq⟩ := Option.map_eq_some_iff.mp h
        cases ok <;> cases heq
        exact ih.object hread
      split at h
      · next v' s₁ hv =>
        cases h
        exact parseScalar_normal hv
      · dsimp only at h
        split at h
        · split at h
          · next xs s₁ hread =>
            cases h
            exact ih.array hread
          · exact hobject h
          · cases h
        · exact hobject h
    case array =>
      intro s xs s' h
      rw [parseArray] at h
      split at h
      · cases h
      · split at h
        · cases h
          trivial
        · obtain ⟨⟨xs', s₁⟩, hread, heq⟩ := Option.map_eq_some_iff.mp h
          have hnil : AllNormal ([] : List (Value ν)) := trivial
          dsimp only at heq
          split at heq <;> cases heq
          exact ih.elements hnil hread
    case elements =>
      intro s xs xs' s' hxs h
      rw [parseElements] at h
      split at h
      · cases h
      · cases h
        exact hxs
      · next v s₁ hread =>
        -- The element that has been read joins those before it, whether a comma follows or not.
        have hxs' : AllNormal (xs ++ [v]) := allNormal_append hxs (ih.value hread)
        split at h
        · exact ih.elements hxs' h
        · cases h
          exact hxs'
    case object =>
      intro s ok fields s' h
      rw [parseObject] at h
      have hnil : (Value.object ([] : Fields ν)).IsNormal := ⟨SortedMap.sorted_nil, trivial⟩
      split at h
      · cases h
        exact hnil
      · split at h
        · cases h
          exact hnil
        · obtain ⟨⟨ok', fields', s₁⟩, hread, heq⟩ := Option.map_eq_some_iff.mp h
          dsimp only at heq
          split at heq <;> cases heq
          · exact ih.members hnil hread
          · exact ih.members hnil hread
    case members =>
      intro s fields ok fields' s' hfields h
      rw [parseMembers] at h
      split at h
      · cases h
        exact hfields
      · next key s₁ _ =>
        split at h
        · cases h
          exact hfields
        · split at h
          · cases h
          · cases h
            exact hfields
          · next v s₃ hread =>
            -- `store` keeps the keys in order, also where the key has been there.
            have hstore : (Value.object (SortedMap.store key v fields)).IsNormal :=
              ⟨hfields.1.store _ _, hfields.2.store (ih.value hread)⟩
            split at h
            · exact ih.members hstore h
            · cases h
              exact hstore

/-- Whatever comes in, `Object::parse` has one result that more fuel does not change. It leaves the stream further
    on in the same text. The fields that it has read then, also where it reports a failure, make up a map, and so
    do those of every object in it. To the loops of `match` and of `parse_string`, which get a round for each byte left
    and one more, further rounds make no difference. -/
theorem parse_total (N : NumberFormat ν) (s : IStream) :
    (∀ fuel, 3 * s.rest.length + 2 ≤ fuel → parseObject N fuel s = some (parse N s)) ∧
      Onward s (parse N s).2.2 ∧ (Value.object (parse N s).2.1).IsNormal ∧
      ∀ rounds, s.rest.length < rounds →
        (∀ ch done todo, matchLoop rounds ch done todo s = matchLoop (s.rest.length + 1) ch done todo s) ∧
        ∀ delimiter ch value, stringLoop delimiter rounds ch value s =
          stringLoop delimiter (s.rest.length + 1) ch value s := by
  have hparse : parseObject N (3 * s.rest.length + 2) s = some (parse N s) := parse_eq (Nat.le_refl _)
  obtain ⟨r, hr, hf⟩ := parseObject_ends (N := N) (s := s) fun s' _ => (parse_ends s').2
  obtain rfl : parse N s = r := Option.some.inj (hparse.symm.trans (hf _ (Nat.le_refl _)))
  refine ⟨fun fuel h => parse_eq h, hr, (keepsOrder _).object hparse, fun rounds h => ⟨?_, ?_⟩⟩
  · exact fun ch done todo => matchLoop_rounds h (Nat.lt_succ_self _)
  · exact fun delimiter ch value => stringLoop_rounds h (Nat.lt_succ_self _)

end Jsonxx
end MultiSlider
