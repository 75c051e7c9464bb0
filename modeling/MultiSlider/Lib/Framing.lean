import Mathlib.Data.List.DropRight
import Mathlib.Data.List.Forall2

/-! Messages written one after another on a stream, and a reader that is handed the stream piece by piece and
    reads one message from each piece. White space around a message makes no difference to it. -/

namespace Framing

universe u v

variable {β : Type u} {μ : Type v}

/-- What the messages are on the stream. -/
def stream (write : μ → List β) (ms : List μ) : List β := ms.flatMap write

/-- Nothing but white space. -/
def Blank (blank : β → Bool) (text : List β) : Prop := ∀ b ∈ text, blank b

/-- The text without the white space around it. -/
def strip (blank : β → Bool) (text : List β) : List β := (text.dropWhile blank).rdropWhile blank

/-- Each piece is the text of one message, up to white space around it. -/
def Exact (blank : β → Bool) (write : μ → List β) (texts : List (List β)) (ms : List μ) : Prop :=
  List.Forall₂ (fun text m => strip blank text = strip blank (write m)) texts ms

/-- What is assumed of a reader where the messages `ms` are written. -/
structure Reads (blank : β → Bool) (write : μ → List β) (read : List β → Option μ) (ms : List μ) : Prop where
  /-- A whole message, with white space around it, is read as what it is. -/
  whole : ∀ m ∈ ms, ∀ text, strip blank text = strip blank (write m) → read text = some m
  empty : ∀ text, Blank blank text → read text = none
  /-- What begins inside a message is not read as this message. -/
  inside : ∀ ms₁ m ms₂, ms = ms₁ ++ m :: ms₂ → ∀ p s, write m = p ++ s → p ≠ [] → ¬Blank blank s →
    ∀ text, text <+: s ++ stream write ms₂ → read text ≠ some m
  /-- Where a message is read without its end, what begins with the end is not read. -/
  cut : ∀ ms₁ m ms₂, ms = ms₁ ++ m :: ms₂ → ∀ p s, write m = p ++ s → p ≠ [] → ¬Blank blank s →
    ∀ r, Blank blank r → read (r ++ p) = some m → ∀ text, text <+: s ++ stream write ms₂ → read text = none

variable {blank : β → Bool} {write : μ → List β} {read : List β → Option μ} {ms : List μ} {m : μ}
  {texts : List (List β)} {r s text : List β}

instance Blank.decidable : Decidable (Blank blank text) := List.decidableBAll (fun b => blank b = true) text

@[simp] theorem stream_nil : stream write [] = [] := rfl

@[simp] theorem stream_cons : stream write (m :: ms) = write m ++ stream write ms := List.flatMap_cons

/-! ### White space -/

theorem blank_nil : Blank blank ([] : List β) := fun _ hb => absurd hb List.not_mem_nil

theorem Blank.left (h : Blank blank (r ++ s)) : Blank blank r := fun b hb => h b (List.mem_append_left s hb)

theorem strip_append_left (hr : Blank blank r) : strip blank (r ++ text) = strip blank text := by
  unfold strip
  rw [List.dropWhile_append_of_pos hr]

theorem rdropWhile_append_blank (hs : Blank blank s) : (text ++ s).rdropWhile blank = text.rdropWhile blank := by
  unfold List.rdropWhile
  rw [List.reverse_append, List.dropWhile_append_of_pos fun b hb => hs b (List.mem_reverse.mp hb)]

theorem strip_append_right (hs : Blank blank s) : strip blank (text ++ s) = strip blank text := by
  unfold strip
  rw [List.dropWhile_append]
  split
  · next hnil =>
    have hs' : s.dropWhile blank = [] := List.dropWhile_eq_nil_iff.mpr hs
    rw [hs', List.isEmpty_iff.mp hnil]
  · exact rdropWhile_append_blank hs

/-! ### Readers -/

namespace Reads

theorem tail (h : Reads blank write read (m :: ms)) : Reads blank write read ms where
  whole m' hm' := h.whole m' (List.mem_cons_of_mem m hm')
  empty := h.empty
  inside ms₁ m' ms₂ hms := h.inside (m :: ms₁) m' ms₂ (by rw [hms, List.cons_append])
  cut ms₁ m' ms₂ hms := h.cut (m :: ms₁) m' ms₂ (by rw [hms, List.cons_append])

/-- What is read as a message is not blank. -/
theorem not_blank (h : Reads blank write read ms) (hread : read text = some m) : ¬Blank blank text := fun hblank => by
  rw [h.empty text hblank] at hread
  cases hread

/-- A reader that is behind the stream does not catch up: the pieces left, which begin inside the next message
    or later, are not read as the messages left. -/
theorem not_behind (h : Reads blank write read ms) (hr : r ≠ []) (hstream : stream write ms = r ++ texts.flatten) :
    ¬List.Forall₂ (fun text m => read text = some m) texts ms := by
  intro hreads
  induction ms generalizing texts r with
  | nil => exact hr (List.append_eq_nil_iff.mp hstream.symm).1
  | cons m ms ih =>
    obtain _ | ⟨hread, hreads⟩ := hreads
    rename_i text texts
    have htext := h.not_blank hread
    have hne : text ≠ [] := fun hnil => htext (hnil ▸ blank_nil)
    rw [stream_cons, List.flatten_cons] at hstream
    rcases List.append_eq_append_iff.mp hstream with ⟨e, he, hrest⟩ | ⟨s, hs, hrest⟩
    · exact ih h.tail (fun hnil => hne (List.append_eq_nil_iff.mp hnil).2) (by rw [hrest, List.append_assoc]) hreads
    · by_cases hblank : Blank blank s
      · -- Only white space is left of the message, and the piece goes on beyond it.
        rcases List.append_eq_append_iff.mp hrest with ⟨e, he, -⟩ | ⟨e, he, hrest⟩
        · exact htext (Blank.left (he ▸ hblank))
        · exact ih h.tail (fun hnil => htext (by rw [he, hnil, List.append_nil]; exact hblank)) hrest hreads
      · exact h.inside [] m ms rfl r s hs hr hblank text ⟨texts.flatten, hrest⟩ hread

/-- Where every piece is read as the next message, every piece is the next message. -/
theorem exact_of_reads (h : Reads blank write read ms) (hr : Blank blank r)
    (hstream : texts.flatten = r ++ stream write ms)
    (hreads : List.Forall₂ (fun text m => read text = some m) texts ms) : Exact blank write texts ms := by
  induction ms generalizing texts r with
  | nil =>
    cases hreads
    exact .nil
  | cons m ms ih =>
    obtain _ | ⟨hread, hreads⟩ := hreads
    rename_i text texts
    have htext := h.not_blank hread
    rw [stream_cons, List.flatten_cons, ← List.append_assoc] at hstream
    rcases List.append_eq_append_iff.mp hstream with ⟨s, hs, hrest⟩ | ⟨e, he, hrest⟩
    · by_cases hblank : Blank blank s
      · have hstrip : strip blank text = strip blank (write m) := by
          rw [← strip_append_right hblank, ← hs, strip_append_left hr]
        exact .cons hstrip (ih h.tail hblank hrest hreads)
      · -- The piece ends inside the message, and the next piece begins there.
        exfalso
        rcases List.append_eq_append_iff.mp hs with ⟨p, hp, hwrite⟩ | ⟨e, he, -⟩
        · cases hreads with
          | nil =>
            rw [List.flatten_nil, eq_comm, List.append_eq_nil_iff] at hrest
            exact hblank (hrest.1 ▸ blank_nil)
          | cons hread' hreads =>
            rename_i text' m' texts ms
            have hne : p ≠ [] := fun hnil => htext (by rw [hp, hnil, List.append_nil]; exact hr)
            have hnone := h.cut [] m _ rfl p s hwrite hne hblank r hr (hp ▸ hread) text' ⟨texts.flatten, hrest⟩
            rw [hnone] at hread'
            cases hread'
        · exact htext (Blank.left (he ▸ hr))
    · by_cases hnil : e = []
      · subst hnil
        rw [List.append_nil] at he
        have hstrip : strip blank text = strip blank (write m) := by rw [he, strip_append_left hr]
        exact .cons hstrip (ih h.tail blank_nil hrest.symm hreads)
      · exact absurd hreads (not_behind h.tail hnil hrest)

/-- The reader makes the messages written of the pieces exactly if each piece is one message. -/
theorem map_read_iff (h : Reads blank write read ms) (hstream : texts.flatten = stream write ms) :
    texts.map read = ms.map some ↔ Exact blank write texts ms := by
  rw [← List.forall₂_eq_eq_eq, List.forall₂_map_left_iff, List.forall₂_map_right_iff]
  refine ⟨h.exact_of_reads blank_nil hstream, fun hexact => ?_⟩
  clear hstream
  induction hexact with
  | nil => exact .nil
  | cons hstrip _ ih => exact .cons (h.whole _ List.mem_cons_self _ hstrip) (ih h.tail)

end Reads

/-! ### Messages that begin with a mark -/

/-- The reader that knows one message by the beginning of its text and ignores what follows. -/
def first [BEq β] (blank : β → Bool) (opening : List β) (m : μ) (text : List β) : Option μ :=
  if opening.isPrefixOf (text.dropWhile blank) then some m else none

variable {b : β} {opening : List β}

/-- The end of a text that begins with the mark is without it. -/
theorem not_mem_end {body p : List β} (hbody : b ∉ body) (hp : b :: body = p ++ s) (hne : p ≠ []) : b ∉ s := by
  obtain _ | ⟨b', p⟩ := p
  · exact absurd rfl hne
  · rw [(List.cons.inj hp).2] at hbody
    exact fun hmem => hbody (List.mem_append_right p hmem)

variable [BEq β] [LawfulBEq β]

/-- What begins behind the mark is not read. -/
theorem first_eq_none (hb : b ∉ s) (hs : ¬Blank blank s) {t : List β} (htext : text <+: s ++ t) :
    first blank (b :: opening) m text = none := by
  refine if_neg fun hprefix => ?_
  obtain ⟨rest, hrest⟩ := List.isPrefixOf_iff_prefix.mp hprefix
  have hmem : b ∈ s := by
    obtain ⟨u, hu⟩ := htext
    rcases List.append_eq_append_iff.mp hu with ⟨s', hs', -⟩ | ⟨text', htext', -⟩
    · rw [hs']
      refine List.mem_append_left s' (List.dropWhile_sublist blank |>.subset ?_)
      rw [← hrest]
      exact List.mem_cons_self
    · rw [htext', List.dropWhile_append] at hrest
      cases hdrop : s.dropWhile blank with
      | nil => exact absurd (List.dropWhile_eq_nil_iff.mp hdrop) hs
      | cons b' s' =>
        rw [hdrop, List.isEmpty_cons, if_neg Bool.false_ne_true, List.cons_append, List.cons_append,
          List.cons.injEq] at hrest
        exact (List.dropWhile_sublist blank).subset (by rw [hdrop, hrest.1]; exact List.mem_cons_self)
  exact hb hmem

/-- The reader of a message whose text begins with a mark that does not come again in it. -/
theorem first_reads {body : List β} (hbody : b ∉ body) (hopening : b :: opening <+: strip blank (b :: body)) (n : Nat) :
    Reads blank (fun _ => b :: body) (first blank (b :: opening) m) (List.replicate n m) where
  whole m' hm' text htext := by
    rw [List.eq_of_mem_replicate hm']
    rw [← htext] at hopening
    exact if_pos (List.isPrefixOf_iff_prefix.mpr (hopening.trans (List.rdropWhile_prefix blank _)))
  empty text htext := by
    unfold first
    rw [List.dropWhile_eq_nil_iff.mpr htext]
    rfl
  inside ms₁ m' ms₂ _ p s hp hne hs text htext := by
    rw [first_eq_none (not_mem_end hbody hp hne) hs htext]
    exact fun h => by cases h
  cut ms₁ m' ms₂ _ p s hp hne hs r _ _ text htext := first_eq_none (not_mem_end hbody hp hne) hs htext

end Framing
