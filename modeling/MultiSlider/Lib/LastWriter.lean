import Mathlib.Data.List.Chain
import Mathlib.Logic.Function.Basic
import Mathlib.Order.MinMax
import MultiSlider.Lib.Machine

/-! Last-writer-wins registers behind a guard. Each writer has a register that holds the stamp of its newest
    write, and a write that is not newer is refused. A write that is taken and carries a value competes, by the
    same stamp, for one register that all writers share. The order in which writes come is arbitrary. -/

namespace LastWriter

universe u v w

/-- A write; it leaves the shared register alone where it carries no value. -/
structure Write (κ : Type u) (τ : Type v) (ω : Type w) where
  writer : κ
  stamp : τ
  value : Option ω
deriving DecidableEq

/-- The stamp of the newest write of each writer, and the shared register. -/
structure Registers (κ : Type u) (τ : Type v) (ω : Type w) where
  seen : κ → τ
  stamp : τ
  value : ω

variable {κ : Type u} {τ : Type v} {ω : Type w} [DecidableEq κ] [LinearOrder τ]

namespace Registers

/-- The write is newer than all that its writer has written. -/
def Takes (r : Registers κ τ ω) (m : Write κ τ ω) : Prop := r.seen m.writer < m.stamp

instance (r : Registers κ τ ω) (m : Write κ τ ω) : Decidable (r.Takes m) :=
  inferInstanceAs (Decidable (r.seen m.writer < m.stamp))

/-- A write that is not newer than the last of its writer is dropped. The value of one that is taken is kept only if it
    is newer than the value that is there. -/
def write (r : Registers κ τ ω) (m : Write κ τ ω) : Registers κ τ ω :=
  if r.Takes m then
    let r' := { r with seen := Function.update r.seen m.writer m.stamp }
    match m.value with
    | some x => if r.stamp < m.stamp then { r' with stamp := m.stamp, value := x } else r'
    | none => r'
  else r

/-- The writes of a run that are taken. -/
def taken (r : Registers κ τ ω) (ms : List (Write κ τ ω)) : List (Write κ τ ω) :=
  Machine.outputs write (fun r m => if r.Takes m then [m] else []) r ms

variable {r : Registers κ τ ω} {ms : List (Write κ τ ω)} {m : Write κ τ ω} {k : κ} {t : τ} {x : ω}

/-! ### One write -/

theorem write_seen : (r.write m).seen = if r.Takes m then Function.update r.seen m.writer m.stamp else r.seen := by
  unfold write
  split
  · dsimp only
    split
    · split <;> rfl
    · rfl
  · rfl

theorem write_seen_lt_iff : (r.write m).seen k < t ↔ r.seen k < t ∧ (m.writer = k → m.stamp < t) := by
  rw [write_seen]
  by_cases hk : m.writer = k
  · subst hk
    split
    · rename_i htakes
      rw [Function.update_self]
      exact ⟨fun h => ⟨lt_trans htakes h, fun _ => h⟩, fun h => h.2 rfl⟩
    · rename_i hrefused
      exact ⟨fun h => ⟨h, fun _ => lt_of_le_of_lt (not_lt.mp hrefused) h⟩, fun h => h.1⟩
  · have hsame : (if r.Takes m then Function.update r.seen m.writer m.stamp else r.seen) k = r.seen k := by
      split
      · exact Function.update_of_ne (Ne.symm hk) _ _
      · rfl
    rw [hsame]
    exact ⟨fun h => ⟨h, fun heq => absurd heq hk⟩, fun h => h.1⟩

/-- A write changes the shared register only if it is taken, carries a value and is newer. -/
theorem write_shared : ((r.write m).stamp = r.stamp ∧ (r.write m).value = r.value ∧
      ∀ x, m.value = some x → r.Takes m → m.stamp ≤ r.stamp) ∨
    r.Takes m ∧ r.stamp < m.stamp ∧ ∃ x, m.value = some x ∧ (r.write m).stamp = m.stamp ∧ (r.write m).value = x := by
  unfold write
  split
  · rename_i htakes
    dsimp only
    split
    · rename_i x hx
      split
      · rename_i hnewer
        exact Or.inr ⟨htakes, hnewer, x, hx, rfl, rfl⟩
      · rename_i hold
        exact Or.inl ⟨rfl, rfl, fun _ _ _ => not_lt.mp hold⟩
    · rename_i hnone
      exact Or.inl ⟨rfl, rfl, fun x hx => absurd (hnone.symm.trans hx) (by simp)⟩
  · rename_i hrefused
    exact Or.inl ⟨rfl, rfl, fun _ _ htakes => absurd htakes hrefused⟩

theorem write_stamp_lt_iff :
    (r.write m).stamp < t ↔ r.stamp < t ∧ (m.value.isSome → r.Takes m → m.stamp < t) := by
  rcases write_shared (r := r) (m := m) with ⟨hstamp, -, hold⟩ | ⟨htakes, hnewer, x, hx, hstamp, -⟩
  · rw [hstamp]
    refine ⟨fun h => ⟨h, fun hsome htakes => ?_⟩, fun h => h.1⟩
    obtain ⟨x, hx⟩ := Option.isSome_iff_exists.mp hsome
    exact lt_of_le_of_lt (hold x hx htakes) h
  · rw [hstamp]
    exact ⟨fun h => ⟨lt_trans hnewer h, fun _ _ => h⟩, fun h => h.2 (by rw [hx]; rfl) htakes⟩

/-! ### Runs -/

/-- Whether a write is newer than all of its writer depends on the writes of that writer only. -/
theorem run_seen_lt_iff :
    (Machine.run write r ms).seen k < t ↔ r.seen k < t ∧ ∀ m ∈ ms, m.writer = k → m.stamp < t := by
  induction ms generalizing r with
  | nil => simp
  | cons m ms ih =>
    rw [Machine.run_cons, ih, write_seen_lt_iff, and_assoc]
    simp only [List.mem_cons, forall_eq_or_imp]

theorem mem_taken : m ∈ r.taken ms ↔ ∃ pre suf, ms = pre ++ m :: suf ∧ r.seen m.writer < m.stamp ∧
    ∀ m' ∈ pre, m'.writer = m.writer → m'.stamp < m.stamp := by
  unfold taken
  rw [Machine.mem_outputs]
  constructor
  · rintro ⟨pre, m', suf, rfl, hm⟩
    split at hm
    · rename_i htakes
      rw [List.mem_singleton.mp hm]
      exact ⟨pre, suf, rfl, run_seen_lt_iff.mp htakes⟩
    · cases hm
  · rintro ⟨pre, suf, rfl, hnewest⟩
    refine ⟨pre, m, suf, rfl, ?_⟩
    rw [if_pos (show (Machine.run write r pre).Takes m from run_seen_lt_iff.mpr hnewest)]
    exact List.mem_singleton_self m

theorem taken_cons : r.taken (m :: ms) = (if r.Takes m then [m] else []) ++ (r.write m).taken ms := rfl

/-- The stamp of the shared register is the newest of the writes that were taken and carried a value. -/
theorem run_stamp_lt_iff :
    (Machine.run write r ms).stamp < t ↔ r.stamp < t ∧ ∀ m ∈ r.taken ms, m.value.isSome → m.stamp < t := by
  induction ms generalizing r with
  | nil => simp [taken, Machine.outputs]
  | cons m ms ih =>
    rw [Machine.run_cons, ih, write_stamp_lt_iff, taken_cons, and_assoc]
    refine and_congr_right fun _ => ?_
    by_cases htakes : r.Takes m
    · simp [htakes]
    · simp [htakes]

/-- The shared register holds what it held, or the value of a write that was taken. -/
theorem run_shared (r : Registers κ τ ω) (ms : List (Write κ τ ω)) :
    ((Machine.run write r ms).stamp = r.stamp ∧ (Machine.run write r ms).value = r.value) ∨
    ∃ m ∈ r.taken ms, ∃ x, m.value = some x ∧ (Machine.run write r ms).stamp = m.stamp ∧
      (Machine.run write r ms).value = x := by
  induction ms generalizing r with
  | nil => exact Or.inl ⟨rfl, rfl⟩
  | cons m ms ih =>
    rw [Machine.run_cons, taken_cons]
    rcases ih (r.write m) with ⟨hstamp, hvalue⟩ | ⟨m', hm', x, hx, hstamp, hvalue⟩
    · rcases write_shared (r := r) (m := m) with ⟨hsame, hkept, -⟩ | ⟨htakes, -, x, hx, hnew, hwritten⟩
      · exact Or.inl ⟨hstamp.trans hsame, hvalue.trans hkept⟩
      · refine Or.inr ⟨m, ?_, x, hx, hstamp.trans hnew, hvalue.trans hwritten⟩
        simp [htakes]
    · exact Or.inr ⟨m', List.mem_append_right _ hm', x, hx, hstamp, hvalue⟩

/-- Where `m` is the newest write that carries a value, the shared register ends with it if and only if no newer
    write of its writer comes before it. -/
theorem run_newest_iff (hm : m ∈ ms) (hx : m.value = some x)
    (hnewest : ∀ m' ∈ ms, m'.value.isSome → m'.stamp ≤ m.stamp)
    (hdistinct : ∀ m' ∈ ms, m'.stamp = m.stamp → m' = m) (hseen : r.seen m.writer < m.stamp)
    (hstamp : r.stamp < m.stamp) :
    ((Machine.run write r ms).stamp = m.stamp ∧ (Machine.run write r ms).value = x) ↔
      ∃ pre suf, ms = pre ++ m :: suf ∧ ∀ m' ∈ pre, m'.writer = m.writer → m'.stamp < m.stamp := by
  have hmem : ∀ m' ∈ r.taken ms, m' ∈ ms := by
    intro m' hm'
    obtain ⟨pre, suf, rfl, -⟩ := mem_taken.mp hm'
    exact List.mem_append_right _ List.mem_cons_self
  constructor
  · rintro ⟨hend, -⟩
    rcases run_shared r ms with ⟨hsame, -⟩ | ⟨m', hm', x', -, hstamp', -⟩
    · rw [hsame] at hend
      exact absurd hend (ne_of_lt hstamp)
    · obtain rfl := hdistinct m' (hmem m' hm') (hstamp'.symm.trans hend)
      obtain ⟨pre, suf, heq, -, hpre⟩ := mem_taken.mp hm'
      exact ⟨pre, suf, heq, hpre⟩
  · rintro ⟨pre, suf, heq, hpre⟩
    have htaken : m ∈ r.taken ms := mem_taken.mpr ⟨pre, suf, heq, hseen, hpre⟩
    rcases run_shared r ms with ⟨hsame, -⟩ | ⟨m', hm', x', hx', hstamp', hvalue'⟩
    · -- The stamp of a write that was taken is not above that of the shared register.
      have hbelow : ¬(Machine.run write r ms).stamp < m.stamp := fun h =>
        absurd ((run_stamp_lt_iff.mp h).2 m htaken (by rw [hx]; rfl)) (lt_irrefl _)
      rw [hsame] at hbelow
      exact absurd hstamp hbelow
    · have hbelow : ¬m'.stamp < m.stamp := by
        rw [← hstamp']
        exact fun h => absurd ((run_stamp_lt_iff.mp h).2 m htaken (by rw [hx]; rfl)) (lt_irrefl _)
      have hsame := le_antisymm (hnewest m' (hmem m' hm') (by rw [hx']; rfl)) (not_lt.mp hbelow)
      obtain rfl := hdistinct m' (hmem m' hm') hsame
      rw [hx] at hx'
      cases hx'
      exact ⟨hstamp', hvalue'⟩

end Registers

/-! ### One register -/

/-- A register with the stamp of the write that it holds. -/
structure Cell (τ : Type v) (ω : Type w) where
  stamp : τ
  value : ω
deriving DecidableEq

namespace Cell

/-- The newer of the two stays. -/
def write (c m : Cell τ ω) : Cell τ ω := if c.stamp < m.stamp then m else c

variable {c m : Cell τ ω} {ms : List (Cell τ ω)}

theorem write_stamp : (c.write m).stamp = max c.stamp m.stamp := by
  unfold write
  split
  · rename_i hnewer
    exact (max_eq_right (le_of_lt hnewer)).symm
  · rename_i hold
    exact (max_eq_left (not_lt.mp hold)).symm

theorem run_stamp_le_iff {t : τ} : (Machine.run write c ms).stamp ≤ t ↔ c.stamp ≤ t ∧ ∀ m ∈ ms, m.stamp ≤ t := by
  induction ms generalizing c with
  | nil => simp
  | cons m ms ih => rw [Machine.run_cons, ih, write_stamp, max_le_iff, List.forall_mem_cons, and_assoc]

/-- The register holds what it held, or one of the writes. -/
theorem run_mem (c : Cell τ ω) (ms : List (Cell τ ω)) : Machine.run write c ms = c ∨ Machine.run write c ms ∈ ms := by
  induction ms generalizing c with
  | nil => exact Or.inl rfl
  | cons m ms ih =>
    rw [Machine.run_cons]
    rcases ih (c.write m) with hsame | hmem
    · rw [hsame]
      unfold write
      split
      · exact Or.inr List.mem_cons_self
      · exact Or.inl rfl
    · exact Or.inr (List.mem_cons_of_mem m hmem)

/-- Whatever the order and however often they come, the newest of the writes is held in the end. -/
theorem run_newest (hm : m ∈ ms) (hstamp : c.stamp < m.stamp) (hnewest : ∀ m' ∈ ms, m'.stamp ≤ m.stamp)
    (hdistinct : ∀ m' ∈ ms, m'.stamp = m.stamp → m' = m) : Machine.run write c ms = m := by
  have hend := run_stamp_le_iff.mp (le_refl (Machine.run write c ms).stamp)
  rcases run_mem c ms with hsame | hmem
  · rw [hsame] at hend
    exact absurd (hend.2 m hm) (not_le.mpr hstamp)
  · exact hdistinct _ hmem (le_antisymm (hnewest _ hmem) (hend.2 m hm))

end Cell

end LastWriter
