import Mathlib.Order.Lattice

/-! Maps kept as lists of pairs in the order of their keys. Storing puts a pair where it belongs, in place of one
    with the same key. Two lists in order that give the same values are the same list. -/

namespace SortedMap

universe u v

variable {κ : Type u} {υ : Type v} [LinearOrder κ]

/-- The value under a key, the first one if there are several. -/
def get (k : κ) : List (κ × υ) → Option υ
  | [] => none
  | (k', v) :: m => if k = k' then some v else get k m

/-- Store a value under a key. -/
def store (k : κ) (v : υ) : List (κ × υ) → List (κ × υ)
  | [] => [(k, v)]
  | (k', v') :: m =>
    if k < k' then (k, v) :: (k', v') :: m
    else if k = k' then (k, v) :: m
    else (k', v') :: store k v m

/-- Store these pairs one after another. -/
def storeAll (m : List (κ × υ)) (es : List (κ × υ)) : List (κ × υ) := es.foldl (fun m e => store e.1 e.2 m) m

/-- The keys increase. -/
def Sorted (m : List (κ × υ)) : Prop := m.Pairwise fun e e' => e.1 < e'.1

instance (m : List (κ × υ)) : Decidable (Sorted m) :=
  inferInstanceAs (Decidable (m.Pairwise fun e e' => e.1 < e'.1))

variable {k k' : κ} {v : υ} {m m' es : List (κ × υ)}

@[simp] theorem get_nil : get k ([] : List (κ × υ)) = none := rfl

theorem get_cons {e : κ × υ} : get k (e :: m) = if k = e.1 then some e.2 else get k m := rfl

@[simp] theorem storeAll_nil : storeAll m [] = m := rfl

@[simp] theorem storeAll_cons {e : κ × υ} : storeAll m (e :: es) = storeAll (store e.1 e.2 m) es := rfl

theorem sorted_nil : Sorted ([] : List (κ × υ)) := List.Pairwise.nil

theorem sorted_cons {e : κ × υ} : Sorted (e :: m) ↔ (∀ e' ∈ m, e.1 < e'.1) ∧ Sorted m := List.pairwise_cons

/-- What is stored under a key is what it gives from then on. -/
theorem get_store : get k' (store k v m) = if k' = k then some v else get k' m := by
  induction m with
  | nil => rfl
  | cons e m ih =>
    obtain ⟨k₀, v₀⟩ := e
    rw [store]
    split
    · rfl
    · split
      · rename_i heq
        rw [get_cons, get_cons, ← heq]
        split
        · rfl
        · rfl
      · rename_i hne
        rw [get_cons, get_cons, ih]
        by_cases hk : k' = k₀
        · rw [if_pos hk, if_pos hk, if_neg fun h => hne (h.symm.trans hk)]
        · rw [if_neg hk, if_neg hk]

theorem mem_store {e : κ × υ} (h : e ∈ store k v m) : e = (k, v) ∨ e ∈ m := by
  induction m with
  | nil => exact Or.inl (List.mem_singleton.mp h)
  | cons e₀ m ih =>
    rw [store] at h
    split at h
    · exact (List.mem_cons.mp h).imp_right id
    · split at h
      · exact (List.mem_cons.mp h).imp_right (List.mem_cons_of_mem _)
      · rcases List.mem_cons.mp h with rfl | h
        · exact Or.inr List.mem_cons_self
        · exact (ih h).imp_right (List.mem_cons_of_mem _)

theorem Sorted.store (h : Sorted m) (k : κ) (v : υ) : Sorted (store k v m) := by
  induction m with
  | nil => exact List.pairwise_singleton _ _
  | cons e m ih =>
    obtain ⟨hlt, hm⟩ := sorted_cons.mp h
    rw [SortedMap.store]
    split
    · rename_i hk
      refine sorted_cons.mpr ⟨fun e' he' => ?_, h⟩
      rcases List.mem_cons.mp he' with rfl | he'
      · exact hk
      · exact hk.trans (hlt e' he')
    · rename_i hk
      split
      · rename_i heq
        exact sorted_cons.mpr ⟨fun e' he' => heq ▸ hlt e' he', hm⟩
      · rename_i hne
        refine sorted_cons.mpr ⟨fun e' he' => ?_, ih hm⟩
        rcases mem_store he' with rfl | he'
        · exact lt_of_le_of_ne (not_lt.mp hk) (Ne.symm hne)
        · exact hlt e' he'

theorem Sorted.storeAll (h : Sorted m) (es : List (κ × υ)) : Sorted (storeAll m es) := by
  induction es generalizing m with
  | nil => exact h
  | cons e es ih => exact ih (h.store e.1 e.2)

theorem get_eq_none_of_forall_ne (h : ∀ e ∈ m, k ≠ e.1) : get k m = none := by
  induction m with
  | nil => rfl
  | cons e m ih =>
    rw [get_cons, if_neg (h e List.mem_cons_self)]
    exact ih fun e' he' => h e' (List.mem_cons_of_mem e he')

theorem get_eq_some_of_mem (hnodup : (m.map (·.1)).Nodup) (h : (k, v) ∈ m) : get k m = some v := by
  induction m with
  | nil => cases h
  | cons e m ih =>
    obtain ⟨hnew, hnodup⟩ := List.nodup_cons.mp hnodup
    rcases List.mem_cons.mp h with rfl | h
    · exact if_pos rfl
    · have hne : k ≠ e.1 := fun heq => hnew (List.mem_map.mpr ⟨(k, v), h, heq⟩)
      rw [get_cons, if_neg hne]
      exact ih hnodup h

theorem mem_of_get (h : get k m = some v) : (k, v) ∈ m := by
  induction m with
  | nil => cases h
  | cons e m ih =>
    rw [get_cons] at h
    split at h
    · rename_i heq
      cases h
      rw [heq]
      exact List.mem_cons_self
    · exact List.mem_cons_of_mem e (ih h)

/-- After pairs with different keys have been stored, each key gives its value. -/
theorem get_storeAll (hnodup : (es.map (·.1)).Nodup) :
    get k (storeAll m es) = (get k es).or (get k m) := by
  induction es generalizing m with
  | nil => rfl
  | cons e es ih =>
    obtain ⟨hnew, hnodup⟩ := List.nodup_cons.mp hnodup
    rw [storeAll_cons, ih hnodup, get_store, get_cons]
    split
    · rename_i heq
      rw [get_eq_none_of_forall_ne fun e' he' hk => hnew (List.mem_map.mpr ⟨e', he', hk.symm.trans heq⟩)]
      rfl
    · rfl

theorem Sorted.nodup (h : Sorted m) : (m.map (·.1)).Nodup := List.pairwise_map.mpr (h.imp fun hlt => ne_of_lt hlt)

/-- A pair whose key comes after all others is stored at the end. -/
theorem store_last (h : ∀ e ∈ m, e.1 < k) : store k v m = m ++ [(k, v)] := by
  induction m with
  | nil => rfl
  | cons e m ih =>
    have hlt := h e List.mem_cons_self
    rw [store, if_neg hlt.not_gt, if_neg hlt.ne', ih fun e' he' => h e' (List.mem_cons_of_mem e he')]
    rfl

theorem storeAll_append_of_sorted (h : Sorted (m ++ es)) : storeAll m es = m ++ es := by
  induction es generalizing m with
  | nil => rw [storeAll_nil, List.append_nil]
  | cons e es ih =>
    have hlast : ∀ e' ∈ m, e'.1 < e.1 := fun e' he' =>
      (List.pairwise_append.mp h).2.2 e' he' e List.mem_cons_self
    rw [storeAll_cons, store_last hlast, ih]
    · rw [List.append_assoc, List.singleton_append]
    · rw [List.append_assoc, List.singleton_append]
      exact h

/-- A list that is in order stays as it is when its pairs are stored one after another. -/
theorem storeAll_of_sorted (h : Sorted es) : storeAll [] es = es := storeAll_append_of_sorted h

/-- Lists in order that give the same values are the same. -/
theorem ext_get (h : Sorted m) (h' : Sorted m') (heq : ∀ k, get k m = get k m') : m = m' := by
  have hmem : ∀ e, e ∈ m ↔ e ∈ m' := by
    rintro ⟨k, v⟩
    constructor
    · intro he
      exact mem_of_get ((heq k).symm.trans (get_eq_some_of_mem h.nodup he))
    · intro he
      exact mem_of_get ((heq k).trans (get_eq_some_of_mem h'.nodup he))
  have hperm : m.Perm m' := (List.perm_ext_iff_of_nodup (h.imp fun hlt heq => hlt.ne (congrArg Prod.fst heq))
    (h'.imp fun hlt heq => hlt.ne (congrArg Prod.fst heq))).mpr hmem
  exact hperm.eq_of_pairwise (fun e e' _ _ hlt hlt' => absurd hlt hlt'.not_gt) h h'

/-- The order in which pairs with different keys are stored makes no difference. -/
theorem storeAll_perm (hnodup : (es.map (·.1)).Nodup) (h : es.Perm m) : storeAll [] es = storeAll [] m := by
  have hnodup' : (m.map (·.1)).Nodup := (h.map _).nodup_iff.mp hnodup
  refine ext_get (sorted_nil.storeAll es) (sorted_nil.storeAll m) fun k => ?_
  rw [get_storeAll hnodup, get_storeAll hnodup', get_nil, Option.or_none, Option.or_none]
  refine Option.ext fun v => ?_
  constructor
  · intro hv
    exact get_eq_some_of_mem hnodup' (h.mem_iff.mp (mem_of_get hv))
  · intro hv
    exact get_eq_some_of_mem hnodup (h.mem_iff.mpr (mem_of_get hv))

/-- A pair with a new key is added to the others. -/
theorem store_perm (h : ∀ e ∈ m, k ≠ e.1) : (store k v m).Perm ((k, v) :: m) := by
  induction m with
  | nil => exact List.Perm.refl _
  | cons e m ih =>
    obtain ⟨hne, hm⟩ := List.forall_mem_cons.mp h
    rw [store]
    split
    · exact List.Perm.refl _
    · exact ((ih hm).cons _).trans (List.Perm.swap _ _ _)

/-- Pairs with different keys are only put in order. -/
theorem storeAll_perm_append (hnodup : ((m ++ es).map (·.1)).Nodup) : (storeAll m es).Perm (m ++ es) := by
  induction es generalizing m with
  | nil =>
    rw [List.append_nil]
    exact List.Perm.refl m
  | cons e es ih =>
    have hmiddle : (m ++ e :: es).Perm (e :: m ++ es) := List.perm_middle
    have hnodup' : ((e :: m ++ es).map (·.1)).Nodup := (hmiddle.map _).nodup_iff.mp hnodup
    have hnew : ∀ e' ∈ m, e.1 ≠ e'.1 := fun e' he' heq => by
      rw [List.cons_append, List.map_cons, List.nodup_cons] at hnodup'
      exact hnodup'.1 (List.mem_map.mpr ⟨e', List.mem_append_left es he', heq.symm⟩)
    have hstore : (store e.1 e.2 m ++ es).Perm (e :: m ++ es) := (store_perm hnew).append_right es
    rw [storeAll_cons]
    exact ((ih ((hstore.map _).nodup_iff.mpr hnodup')).trans hstore).trans hmiddle.symm

end SortedMap
