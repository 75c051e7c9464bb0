/-! Runs of a deterministic machine: a step function applied to one action after another. What every
    step keeps, every run keeps; a condition on the steps of a run is stated by `Along`, a property of
    all the states it passes by `Always`. -/

namespace Machine

universe u v w

variable {S : Type u} {T : Type v} {A : Type w}

/-- The state after the actions `as`, taken in order from `s`. -/
def run (step : S → A → S) (s : S) (as : List A) : S := as.foldl step s

/-- Each action of the run from `s` is taken in a state that allows it. -/
def Along (step : S → A → S) (ok : S → A → Prop) : S → List A → Prop
  | _, [] => True
  | s, a :: as => ok s a ∧ Along step ok (step s a) as

/-- Each state the run passes, the first and the last included, has the property. -/
def Always (step : S → A → S) (P : S → Prop) : S → List A → Prop
  | s, [] => P s
  | s, a :: as => P s ∧ Always step P (step s a) as

instance Along.decidable (step : S → A → S) (ok : S → A → Prop) [∀ s a, Decidable (ok s a)] :
    (s : S) → (as : List A) → Decidable (Along step ok s as)
  | _, [] => isTrue trivial
  | s, a :: as =>
    have := Along.decidable step ok (step s a) as
    inferInstanceAs (Decidable (ok s a ∧ Along step ok (step s a) as))

instance Always.decidable (step : S → A → S) (P : S → Prop) [∀ s, Decidable (P s)] :
    (s : S) → (as : List A) → Decidable (Always step P s as)
  | s, [] => inferInstanceAs (Decidable (P s))
  | s, a :: as =>
    have := Always.decidable step P (step s a) as
    inferInstanceAs (Decidable (P s ∧ Always step P (step s a) as))

variable {step : S → A → S} {ok : S → A → Prop} {P : S → Prop} {s : S} {as : List A}

@[simp] theorem run_nil : run step s [] = s := rfl

@[simp] theorem run_cons {a : A} : run step s (a :: as) = run step (step s a) as := rfl

theorem run_append {bs : List A} : run step s (as ++ bs) = run step (run step s as) bs :=
  List.foldl_append

/-- Actions that every state allows. -/
theorem along_of_forall (h : ∀ a ∈ as, ∀ s, ok s a) : Along step ok s as := by
  induction as generalizing s with
  | nil => trivial
  | cons a as ih =>
    exact ⟨h a List.mem_cons_self s, ih fun b hb => h b (List.mem_cons_of_mem a hb)⟩

theorem Along.and {ok' : S → A → Prop} (h : Along step ok s as) (h' : Along step ok' s as) :
    Along step (fun s a => ok s a ∧ ok' s a) s as := by
  induction as generalizing s with
  | nil => trivial
  | cons a as ih => exact ⟨⟨h.1, h'.1⟩, ih h.2 h'.2⟩

/-- A property that the allowed steps keep holds after every run of allowed steps. -/
theorem run_invariant (keep : ∀ s a, P s → ok s a → P (step s a)) (hs : P s) (h : Along step ok s as) :
    P (run step s as) := by
  induction as generalizing s with
  | nil => exact hs
  | cons a as ih => exact ih (keep s a hs h.1) h.2

/-- A property that every step keeps holds after every run. -/
theorem run_keeps (keep : ∀ s a, P s → P (step s a)) (hs : P s) (as : List A) : P (run step s as) := by
  induction as generalizing s with
  | nil => exact hs
  | cons a as ih => exact ih (keep s a hs)

theorem Always.first (h : Always step P s as) : P s := by
  cases as with
  | nil => exact h
  | cons a as => exact h.1

theorem Always.imp {P' : S → Prop} (himp : ∀ s, P s → P' s) (h : Always step P s as) : Always step P' s as := by
  induction as generalizing s with
  | nil => exact himp s h
  | cons a as ih => exact ⟨himp s h.1, ih h.2⟩

/-- A property that the allowed steps keep holds in every state of a run of allowed steps. -/
theorem always_of_along (keep : ∀ s a, P s → ok s a → P (step s a)) (hs : P s) (h : Along step ok s as) :
    Always step P s as := by
  induction as generalizing s with
  | nil => exact hs
  | cons a as ih => exact ⟨hs, ih (keep s a hs h.1) h.2⟩

/-- A property that every step keeps holds in every state of a run. -/
theorem always_keeps (keep : ∀ s a, P s → P (step s a)) (hs : P s) (as : List A) : Always step P s as := by
  induction as generalizing s with
  | nil => exact hs
  | cons a as ih => exact ⟨hs, ih (keep s a hs)⟩

/-- `Always` speaks of the states after the initial parts of the run. -/
theorem always_iff_prefix : Always step P s as ↔ ∀ pre, pre <+: as → P (run step s pre) := by
  induction as generalizing s with
  | nil => simp [Always]
  | cons a as ih =>
    constructor
    · rintro ⟨hs, h⟩ pre hpre
      cases pre with
      | nil => exact hs
      | cons b pre =>
        obtain ⟨rfl, htail⟩ := List.cons_prefix_cons.mp hpre
        exact ih.mp h pre htail
    · intro h
      refine ⟨h [] List.nil_prefix, ih.mpr fun pre hpre => ?_⟩
      exact h (a :: pre) (List.cons_prefix_cons.mpr ⟨rfl, hpre⟩)

/-- Where a step keeps `P` exactly if it is allowed, a run stays in `P` exactly if all its steps are
    allowed. The invariant `I` is what every step keeps. -/
theorem always_iff_along {I : S → Prop} (keep : ∀ s a, I s → I (step s a))
    (exact : ∀ s a, I s → P s → (P (step s a) ↔ ok s a)) (hI : I s) (hs : P s) :
    Always step P s as ↔ Along step ok s as := by
  induction as generalizing s with
  | nil => simp [Always, Along, hs]
  | cons a as ih =>
    constructor
    · rintro ⟨-, h⟩
      exact ⟨(exact s a hI hs).mp h.first, (ih (keep s a hI) h.first).mp h⟩
    · rintro ⟨ha, h⟩
      have hs' := (exact s a hI hs).mpr ha
      exact ⟨hs, (ih (keep s a hI) hs').mpr h⟩

/-- Where each step that ends in `P` is allowed, a run that stays in `P` takes allowed steps only. -/
theorem Always.along {I : S → Prop} (keep : ∀ s a, I s → I (step s a)) (imp : ∀ s a, I s → P (step s a) → ok s a)
    (hI : I s) (h : Always step P s as) : Along step ok s as := by
  induction as generalizing s with
  | nil => trivial
  | cons a as ih => exact ⟨imp s a hI h.2.first, ih (keep s a hI) h.2⟩

/-- Conditions on the steps that agree wherever the invariant `I` holds. -/
theorem along_congr {ok' : S → A → Prop} {I : S → Prop} (keep : ∀ s a, I s → I (step s a))
    (exact : ∀ s a, I s → (ok s a ↔ ok' s a)) (hI : I s) : Along step ok s as ↔ Along step ok' s as := by
  induction as generalizing s with
  | nil => exact Iff.rfl
  | cons a as ih => exact and_congr (exact s a hI) (ih (keep s a hI))

/-- What the allowed steps do in the states that the invariant `I` describes. -/
theorem Along.of_invariant {ok' : S → A → Prop} {I : S → Prop} (keep : ∀ s a, I s → ok s a → I (step s a))
    (imp : ∀ s a, I s → ok s a → ok' s a) (hI : I s) (h : Along step ok s as) : Along step ok' s as := by
  induction as generalizing s with
  | nil => trivial
  | cons a as ih => exact ⟨imp s a hI h.1, ih (keep s a hI h.1) h.2⟩

/-! ### Outputs -/

variable {O : Type v}

/-- What the steps of a run put out, in order. -/
def outputs (step : S → A → S) (out : S → A → List O) : S → List A → List O
  | _, [] => []
  | s, a :: as => out s a ++ outputs step out (step s a) as

theorem outputs_append {out : S → A → List O} {bs : List A} :
    outputs step out s (as ++ bs) = outputs step out s as ++ outputs step out (run step s as) bs := by
  induction as generalizing s with
  | nil => rfl
  | cons a as ih => simp [outputs, ih]

theorem mem_outputs {out : S → A → List O} {x : O} :
    x ∈ outputs step out s as ↔ ∃ pre a suf, as = pre ++ a :: suf ∧ x ∈ out (run step s pre) a := by
  induction as generalizing s with
  | nil => simp [outputs]
  | cons a as ih =>
    rw [outputs, List.mem_append, ih]
    constructor
    · rintro (hx | ⟨pre, b, suf, rfl, hx⟩)
      · exact ⟨[], a, as, rfl, hx⟩
      · exact ⟨a :: pre, b, suf, rfl, hx⟩
    · rintro ⟨pre, b, suf, heq, hx⟩
      cases pre with
      | nil =>
        obtain ⟨rfl, rfl⟩ := List.cons.inj heq
        exact Or.inl hx
      | cons c pre =>
        obtain ⟨rfl, rfl⟩ := List.cons.inj heq
        exact Or.inr ⟨pre, b, suf, rfl, hx⟩

/-- Related machines put out the same: each allowed action keeps them related and has the same output on both. -/
theorem outputs_related {step' : T → A → T} {out : S → A → List O} {out' : T → A → List O} {R : S → T → Prop}
    {allowed : A → Prop} {t : T} (keep : ∀ s t a, R s t → allowed a → R (step s a) (step' t a))
    (same : ∀ s t a, R s t → allowed a → out s a = out' t a) (hR : R s t) (h : ∀ a ∈ as, allowed a) :
    outputs step out s as = outputs step' out' t as ∧ R (run step s as) (run step' t as) := by
  induction as generalizing s t with
  | nil => exact ⟨rfl, hR⟩
  | cons a as ih =>
    obtain ⟨ha, has⟩ := List.forall_mem_cons.mp h
    obtain ⟨houtputs, hrun⟩ := ih (keep s t a hR ha) has
    refine ⟨?_, hrun⟩
    rw [outputs, outputs, same s t a hR ha, houtputs]

/-- Outputs in the order of a relation: what has been put out bounds the states after it, and each of these
    puts out what its bounds are related to. -/
theorem outputs_pairwise {out : S → A → List O} {R : O → O → Prop} (bounds : O → S → Prop)
    (one : ∀ s a, (out s a).Pairwise R) (put : ∀ s a x, x ∈ out s a → bounds x (step s a))
    (kept : ∀ s a x, bounds x s → bounds x (step s a))
    (related : ∀ s a x y, bounds x s → y ∈ out s a → R x y) : (outputs step out s as).Pairwise R := by
  induction as generalizing s with
  | nil => exact .nil
  | cons a as ih =>
    refine List.pairwise_append.mpr ⟨one s a, ih, fun x hx y hy => ?_⟩
    obtain ⟨pre, b, suf, -, hy⟩ := mem_outputs.mp hy
    have hbounds : bounds x (run step (step s a) pre) := run_keeps (fun s b => kept s b x) (put s a x hx) pre
    exact related _ b x y hbounds hy

/-- What the allowed steps put out in the states of the invariant `P`. -/
theorem Along.outputs {out : S → A → List O} {Q : O → Prop}
    (keep : ∀ s a, P s → ok s a → P (step s a) ∧ ∀ x ∈ out s a, Q x) (hs : P s) (h : Along step ok s as) :
    ∀ x ∈ outputs step out s as, Q x := by
  induction as generalizing s with
  | nil => exact List.forall_mem_nil _
  | cons a as ih =>
    obtain ⟨hnext, hout⟩ := keep s a hs h.1
    exact List.forall_mem_append.mpr ⟨hout, ih hnext h.2⟩

/-- Outputs that depend on the actions only. -/
theorem outputs_actions {out : A → List O} : outputs step (fun _ => out) s as = as.flatMap out := by
  induction as generalizing s with
  | nil => rfl
  | cons a as ih => rw [outputs, ih, List.flatMap_cons]

/-- A log to which every step appends what it puts out. -/
theorem run_log {L : S → List O} {out : S → A → List O} (h : ∀ s a, L (step s a) = L s ++ out s a) :
    L (run step s as) = L s ++ outputs step out s as := by
  induction as generalizing s with
  | nil => exact (List.append_nil _).symm
  | cons a as ih => rw [run_cons, ih, h, outputs, List.append_assoc]

/-- A machine inside another one, whose steps put out what the inner one takes. -/
theorem run_inner {step' : T → O → T} {inner : S → T} {out : S → A → List O}
    (h : ∀ s a, inner (step s a) = run step' (inner s) (out s a)) :
    inner (run step s as) = run step' (inner s) (outputs step out s as) := by
  induction as generalizing s with
  | nil => rfl
  | cons a as ih => rw [run_cons, ih, h, outputs, run_append]

/-! ### Two machines -/

/-- Two machines side by side. -/
def pair (step : S → A → S) (step' : T → A → T) (p : S × T) (a : A) : S × T := (step p.1 a, step' p.2 a)

theorem run_pair {step' : T → A → T} {t : T} : run (pair step step') (s, t) as = (run step s as, run step' t as) := by
  induction as generalizing s t with
  | nil => rfl
  | cons a as ih => exact ih

theorem along_pair {step' : T → A → T} {t : T} :
    Along (pair step step') (fun p a => ok p.1 a) (s, t) as ↔ Along step ok s as := by
  induction as generalizing s t with
  | nil => exact Iff.rfl
  | cons a as ih => exact and_congr_right fun _ => ih

/-- Where a step of two machines keeps the relation `R` exactly if it is allowed, they stay related all along
    a run exactly if all its steps are allowed. -/
theorem related_iff_along {step' : T → A → T} {R : S → T → Prop} {I : S → Prop} {t : T}
    (keep : ∀ s a, I s → I (step s a))
    (exact : ∀ s t a, I s → R s t → (R (step s a) (step' t a) ↔ ok s a)) (hI : I s) (hR : R s t) :
    (∀ pre, pre <+: as → R (run step s pre) (run step' t pre)) ↔ Along step ok s as := by
  rw [← along_pair (t := t), ← always_iff_along (I := fun p => I p.1) (P := fun p => R p.1 p.2)
    (fun p a => keep p.1 a) (fun p a => exact p.1 p.2 a) hI hR, always_iff_prefix]
  simp only [run_pair]

end Machine
