/-
# Linked lists with two ends

Many lists in one memory.  Of each list the addresses of its first and of its last cell are kept
(`Ends`), and the cells are linked from the first to the last.  `Threaded next ends l` says that the
lists are `l`, that the ends are right, and that no two lists share a cell.  One list can be replaced
if the cells of the others are left alone (`Threaded.replace`); hanging a cell on the end, taking the
first cell off and putting a cell in front are such replacements (`Threaded.hang`, `Threaded.unlink`,
`Threaded.prepend`).
-/
import CCSim.Lib.Cells
import Mathlib.Data.List.Nodup

namespace CCSim

variable {A ι : Type} [DecidableEq A] {next next' : A → Option (Option A)} {a b : A}
  {p : Option A} {l l' : List A}

/-- The addresses of the first and of the last cell of a list. -/
structure Ends (A : Type) where
  head : Option A
  tail : Option A
  deriving DecidableEq

/-- The lists `l` are in the memory, with these ends, and apart from each other. -/
structure Threaded (next : A → Option (Option A)) (ends : ι → Ends A) (l : ι → List A) : Prop where
  segment (i : ι) : Segment next (ends i).head (l i) none
  tail (i : ι) : (ends i).tail = (l i).getLast?
  apart (i j : ι) (a : A) (hi : a ∈ l i) (hj : a ∈ l j) : i = j

/-! ## 1. One list -/

omit [DecidableEq A] in
theorem Segment.head (h : Segment next p l none) : p = l.head? := by
  cases h <;> rfl

/-! ## 2. Many lists -/

namespace Threaded

variable [DecidableEq ι] {ends : ι → Ends A} {ls : ι → List A} {i : ι}

omit [DecidableEq A] [DecidableEq ι] in
theorem head (h : Threaded next ends ls) (i : ι) : (ends i).head = (ls i).head? := (h.segment i).head

omit [DecidableEq A] [DecidableEq ι] in
theorem head_none (h : Threaded next ends ls) (i : ι) : (ends i).head = none ↔ ls i = [] := by
  rw [h.head, List.head?_eq_none_iff]

omit [DecidableEq A] [DecidableEq ι] in
theorem tail_none (h : Threaded next ends ls) (i : ι) : (ends i).tail = none ↔ ls i = [] := by
  rw [h.tail, List.getLast?_eq_none_iff]

omit [DecidableEq A] [DecidableEq ι] in
theorem nodup (h : Threaded next ends ls) (i : ι) : (ls i).Nodup := (h.segment i).nodup

omit [DecidableEq A] [DecidableEq ι] in
/-- The first cell is the last one only if it is alone. -/
theorem tail_eq_some_iff (h : Threaded next ends ls) (hi : ls i = a :: l) :
    (ends i).tail = some a ↔ l = [] := by
  have hnodup := h.nodup i
  rw [hi] at hnodup
  rw [h.tail, hi]
  cases l with
  | nil => exact iff_of_true rfl rfl
  | cons b l =>
    rw [List.getLast?_cons_cons]
    refine iff_of_false (fun hlast => ?_) (List.cons_ne_nil b l)
    exact (List.nodup_cons.mp hnodup).1 (List.mem_of_getLast? hlast)

omit [DecidableEq A] [DecidableEq ι] in
/-- What the first cell points to. -/
theorem next_head (h : Threaded next ends ls) (hi : ls i = a :: l) : next a = some l.head? := by
  have hsegment := h.segment i
  rw [hi] at hsegment
  obtain ⟨-, r, hr, hl⟩ := segment_cons_iff.mp hsegment
  rw [hr, hl.head]

omit [DecidableEq A] [DecidableEq ι] in
/-- What is written into cells of no list does not matter. -/
theorem congr (h : Threaded next ends ls) (hsame : ∀ i, ∀ a ∈ ls i, next' a = next a) :
    Threaded next' ends ls :=
  ⟨fun i => (h.segment i).congr (hsame i), h.tail, h.apart⟩

omit [DecidableEq A] in
/-- **One list is replaced.** -/
theorem replace (h : Threaded next ends ls) {e : Ends A} (hsegment : Segment next' e.head l' none)
    (htail : e.tail = l'.getLast?) (hsame : ∀ j ≠ i, ∀ a ∈ ls j, next' a = next a)
    (hapart : ∀ j ≠ i, ∀ a ∈ l', a ∉ ls j) :
    Threaded next' (Function.update ends i e) (Function.update ls i l') := by
  refine ⟨fun j => ?_, fun j => ?_, fun j k a hj hk => ?_⟩
  · by_cases hji : j = i
    · subst hji
      rwa [Function.update_self, Function.update_self]
    · rw [Function.update_of_ne hji, Function.update_of_ne hji]
      exact (h.segment j).congr (hsame j hji)
  · by_cases hji : j = i
    · subst hji
      rwa [Function.update_self, Function.update_self]
    · rw [Function.update_of_ne hji, Function.update_of_ne hji]
      exact h.tail j
  · by_cases hji : j = i <;> by_cases hki : k = i
    · rw [hji, hki]
    · rw [hji, Function.update_self] at hj
      rw [Function.update_of_ne hki] at hk
      exact absurd hk (hapart k hki a hj)
    · rw [Function.update_of_ne hji] at hj
      rw [hki, Function.update_self] at hk
      exact absurd hj (hapart j hji a hk)
    · rw [Function.update_of_ne hji] at hj
      rw [Function.update_of_ne hki] at hk
      exact h.apart j k a hj hk

omit [DecidableEq A] in
/-- An empty list gets its first cell. -/
theorem first (h : Threaded next ends ls) (ha : next a = some none) (hnew : ∀ j, a ∉ ls j) (i : ι) :
    Threaded next (Function.update ends i ⟨some a, some a⟩) (Function.update ls i [a]) := by
  refine h.replace (.cons ha (.nil none)) rfl (fun _ _ _ _ => rfl) fun j _ x hx => ?_
  rw [List.mem_singleton.mp hx]
  exact hnew j

/-- A cell is hung on the last one. -/
theorem hang (h : Threaded next ends ls) (ha : next a = some none) (hnew : ∀ j, a ∉ ls j)
    (hb : (ends i).tail = some b) :
    Threaded (Function.update next b (some (some a)))
      (Function.update ends i ⟨(ends i).head, some a⟩) (Function.update ls i (ls i ++ [a])) := by
  have hlast := (h.tail i).symm.trans hb
  obtain ⟨l, hl⟩ := List.getLast?_eq_some_iff.mp hlast
  have hmem : b ∈ ls i := hl ▸ List.mem_append_right _ List.mem_cons_self
  refine h.replace ?_ (List.getLast?_concat).symm (fun j hji x hx => ?_) fun j hji x hx => ?_
  · have hsegment := h.segment i
    have hni := hnew i
    rw [hl] at hsegment hni ⊢
    exact hsegment.hang ha hni
  · refine Function.update_of_ne (fun hxb => hji (h.apart j i x hx ?_)) _ _
    rw [hxb]
    exact hmem
  · rcases List.mem_append.mp hx with hx | hx
    · exact fun hj => hji (h.apart j i x hj hx)
    · rw [List.mem_singleton.mp hx]
      exact hnew j

omit [DecidableEq A] in
/-- The first cell is taken off; it may be written to, or go away. -/
theorem unlink (h : Threaded next ends ls) (hi : ls i = a :: l)
    (hsame : ∀ b ≠ a, next' b = next b) :
    Threaded next' (Function.update ends i ⟨l.head?, if l = [] then none else (ends i).tail⟩)
      (Function.update ls i l) := by
  have hsegment := h.segment i
  have hnodup := h.nodup i
  rw [hi] at hsegment hnodup
  obtain ⟨-, r, -, hl⟩ := segment_cons_iff.mp hsegment
  obtain rfl := hl.head
  have hmem : a ∈ ls i := hi ▸ List.mem_cons_self
  refine h.replace (hl.congr fun x hx => hsame x ?_) ?_ (fun j hji x hx => hsame x ?_)
    fun j hji x hx hj => ?_
  · rintro rfl
    exact (List.nodup_cons.mp hnodup).1 hx
  · cases l with
    | nil => rfl
    | cons b l =>
      rw [if_neg (List.cons_ne_nil b l), h.tail i, hi, List.getLast?_cons_cons]
  · rintro rfl
    exact hji (h.apart j i x hx hmem)
  · exact hji (h.apart j i x hj (hi ▸ List.mem_cons_of_mem a hx))

/-- A cell is put in front of the first one. -/
theorem prepend (h : Threaded next ends ls) (hnew : ∀ j, a ∉ ls j) (i : ι) :
    Threaded (Function.update next a (some (ends i).head))
      (Function.update ends i ⟨some a, if ls i = [] then some a else (ends i).tail⟩)
      (Function.update ls i (a :: ls i)) := by
  have hsame : ∀ j, ∀ x ∈ ls j, Function.update next a (some (ends i).head) x = next x :=
    fun j x hx =>
      have hxa : x ≠ a := fun hxa => hnew j (hxa ▸ hx)
      Function.update_of_ne hxa _ _
  refine h.replace (.cons (Function.update_self _ _ _) ((h.segment i).congr (hsame i))) ?_
    (fun j _ => hsame j) fun j hji x hx hj => ?_
  · cases hi : ls i with
    | nil => rfl
    | cons b l => rw [if_neg (List.cons_ne_nil b l), h.tail i, hi, List.getLast?_cons_cons]
  · rcases List.mem_cons.mp hx with rfl | hx
    · exact hnew j hj
    · exact hji (h.apart j i x hj hx)

end Threaded

end CCSim
