import Mathlib.Data.List.AList
import Mathlib.Data.List.Dedup

/-! Finite maps that are iterated over. The entries of an association list are in iteration order, and
    storing under a key that is present keeps that order. -/

namespace AList

universe u v

variable {κ : Type u} {υ : Type v} [DecidableEq κ]

/-- The values in iteration order. -/
def values (m : AList fun _ : κ => υ) : List υ := m.entries.map (·.2)

/-- The map that sends every key of `ks` to `x`; a key that repeats counts once. -/
def ofKeys (ks : List κ) (x : υ) : AList fun _ : κ => υ where
  entries := ks.dedup.map fun k => ⟨k, x⟩
  nodupKeys := by
    simp [List.NodupKeys, List.keys, Function.comp_def, List.nodup_dedup]

variable {m : AList fun _ : κ => υ} {k k' : κ} {x y : υ}

theorem lookup_eq_some_iff : m.lookup k = some x ↔ (⟨k, x⟩ : Sigma fun _ : κ => υ) ∈ m.entries := by
  rw [← mem_lookup_iff, Option.mem_def]

theorem mem_of_lookup (h : m.lookup k = some x) : k ∈ m := lookup_isSome.mp (by rw [h]; rfl)

theorem exists_lookup (h : k ∈ m) : ∃ x, m.lookup k = some x := Option.isSome_iff_exists.mp (lookup_isSome.mpr h)

theorem mem_values : x ∈ m.values ↔ ∃ k, m.lookup k = some x := by
  simp only [values, List.mem_map, lookup_eq_some_iff]
  constructor
  · rintro ⟨⟨k, y⟩, hmem, rfl⟩
    exact ⟨k, hmem⟩
  · rintro ⟨k, hmem⟩
    exact ⟨⟨k, x⟩, hmem, rfl⟩

/-- The values in the order of the keys. -/
theorem map_some_values : m.values.map some = m.keys.map m.lookup := by
  have hlookup : ∀ e ∈ m.entries, some e.2 = m.lookup e.1 := fun e he => (lookup_eq_some_iff.mpr he).symm
  simpa [values, keys, List.keys] using hlookup

theorem lookup_replace_self (h : k ∈ m) : (m.replace k x).lookup k = some x := by
  obtain ⟨y, hy⟩ := exists_lookup h
  rw [lookup_eq_some_iff] at hy ⊢
  obtain ⟨es, hnd⟩ := m
  simp only [replace] at hy ⊢
  clear h
  induction es with
  | nil => cases hy
  | cons e es ih =>
    simp only [List.kreplace, List.lookmap_cons] at ih ⊢
    by_cases hke : k = e.1
    · simp [hke]
    · simp only [hke, if_false, List.mem_cons] at hy ⊢
      rcases hy with rfl | hy
      · exact absurd rfl hke
      · exact Or.inr (ih (List.nodupKeys_cons.mp hnd).2 hy)

theorem lookup_replace_ne (h : k' ≠ k) : (m.replace k x).lookup k' = m.lookup k' := by
  obtain ⟨es, hnd⟩ := m
  simp only [lookup, replace]
  clear hnd
  induction es with
  | nil => rfl
  | cons e es ih =>
    simp only [List.kreplace, List.lookmap_cons] at ih ⊢
    by_cases hke : k = e.1
    · obtain ⟨k₀, x₀⟩ := e
      subst hke
      simp [List.dlookup_cons_ne, h]
    · simp only [hke, if_false]
      obtain ⟨k₀, x₀⟩ := e
      by_cases hk' : k' = k₀
      · subst hk'
        simp
      · rw [List.dlookup_cons_ne _ _ hk', List.dlookup_cons_ne _ _ hk', ih]

theorem lookup_replace_of_mem (h : k ∈ m) : (m.replace k x).lookup k' = if k' = k then some x else m.lookup k' := by
  split
  · rename_i heq
    rw [heq, lookup_replace_self h]
  · rename_i hne
    exact lookup_replace_ne hne

/-- Where a value that is found after storing one comes from. -/
theorem of_lookup_replace (h : (m.replace k x).lookup k' = some y) :
    (k' = k ∧ x = y) ∨ (k' ≠ k ∧ m.lookup k' = some y) := by
  by_cases hk : k' = k
  · subst hk
    rw [lookup_replace_self (mem_replace.mp (mem_of_lookup h))] at h
    exact Or.inl ⟨rfl, Option.some.inj h⟩
  · rw [lookup_replace_ne hk] at h
    exact Or.inr ⟨hk, h⟩

/-- A function that does not tell the new value from the old one sees the same values in the same order. -/
theorem map_values_replace {ω : Type*} {f : υ → ω} (hy : m.lookup k = some y) (hf : f x = f y) :
    (m.replace k x).values.map f = m.values.map f := by
  rw [lookup_eq_some_iff] at hy
  obtain ⟨es, hnd⟩ := m
  simp only [values, replace] at hy ⊢
  induction es with
  | nil => rfl
  | cons e es ih =>
    simp only [List.kreplace, List.lookmap_cons] at ih ⊢
    by_cases hke : k = e.1
    · -- The first entry under the key is the only one, so it holds the old value.
      have he : e.2 = y := by
        rcases List.mem_cons.mp hy with rfl | hy
        · rfl
        · exact absurd (hke ▸ List.mem_keys_of_mem hy) (List.nodupKeys_cons.mp hnd).1
      simp [hke, hf, he]
    · simp only [hke, if_false, List.map_cons, List.cons.injEq, true_and]
      rcases List.mem_cons.mp hy with rfl | hy
      · exact absurd rfl hke
      · exact ih (List.nodupKeys_cons.mp hnd).2 hy

@[simp] theorem mem_ofKeys {ks : List κ} : k ∈ ofKeys ks x ↔ k ∈ ks := by
  simp [mem_keys, keys, ofKeys, List.keys, Function.comp_def]

theorem lookup_ofKeys {ks : List κ} : (ofKeys ks x).lookup k = if k ∈ ks then some x else none := by
  split
  · rename_i hk
    rw [lookup_eq_some_iff]
    simpa [ofKeys] using hk
  · rename_i hk
    rw [lookup_eq_none, mem_ofKeys]
    exact hk

end AList
