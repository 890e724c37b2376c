/-
# Linked cells in a memory

A memory is a partial function: what it holds at an address is the address of the next cell, or that
there is none.  `Segment next p l q` says that from `p` on one gets through the cells `l`, in this
order, to `q`; a list is a segment that ends with no address.  Segments are split and joined as lists
are (`Segment.append_iff`), they are determined by where they start (`Segment.unique`), no list comes
back to a cell (`Segment.nodup`), and what is written elsewhere does not matter (`Segment.congr`).
-/
import Mathlib.Data.List.Basic
import Mathlib.Logic.Function.Basic

namespace CCSim

variable {A : Type} {next next' : A → Option (Option A)} {p q r : Option A} {a b : A} {l l' : List A}

/-- From `p` on one gets through the cells `l` to `q`. -/
inductive Segment (next : A → Option (Option A)) : Option A → List A → Option A → Prop
  | nil (p : Option A) : Segment next p [] p
  | cons {a : A} {p q : Option A} {l : List A} (ha : next a = some p) (hl : Segment next p l q) :
      Segment next (some a) (a :: l) q

theorem segment_nil_iff : Segment next p [] q ↔ p = q := by
  constructor
  · rintro ⟨⟩
    rfl
  · rintro rfl
    exact .nil p

theorem segment_cons_iff : Segment next p (a :: l) q ↔
    p = some a ∧ ∃ r, next a = some r ∧ Segment next r l q := by
  constructor
  · intro h
    cases h with
    | cons ha hl => exact ⟨rfl, _, ha, hl⟩
  · rintro ⟨rfl, r, ha, hl⟩
    exact .cons ha hl

/-- Segments are joined and split as lists are. -/
theorem Segment.append_iff : Segment next p (l ++ l') q ↔
    ∃ r, Segment next p l r ∧ Segment next r l' q := by
  induction l generalizing p with
  | nil =>
    constructor
    · intro h
      exact ⟨p, .nil p, h⟩
    · rintro ⟨r, ⟨⟩, h⟩
      exact h
  | cons a l ih =>
    rw [List.cons_append, segment_cons_iff]
    constructor
    · rintro ⟨rfl, s, ha, h⟩
      obtain ⟨r, hl, hl'⟩ := ih.mp h
      exact ⟨r, .cons ha hl, hl'⟩
    · rintro ⟨r, hl, hl'⟩
      obtain ⟨rfl, s, ha, hl⟩ := segment_cons_iff.mp hl
      exact ⟨rfl, s, ha, ih.mpr ⟨r, hl, hl'⟩⟩

/-- What is written elsewhere does not matter. -/
theorem Segment.congr (h : Segment next p l q) (hsame : ∀ a ∈ l, next' a = next a) :
    Segment next' p l q := by
  induction h with
  | nil p => exact .nil p
  | cons ha _ ih =>
    refine .cons ?_ (ih fun a h => hsame a (List.mem_cons_of_mem _ h))
    rw [hsame _ List.mem_cons_self]
    exact ha

/-- Every cell of a segment is in the memory. -/
theorem Segment.isSome (h : Segment next p l q) (ha : a ∈ l) : (next a).isSome := by
  induction h with
  | nil => cases ha
  | cons hcell _ ih =>
    rcases List.mem_cons.mp ha with rfl | ha
    · rw [hcell]
      rfl
    · exact ih ha

/-- A list is determined by where it starts. -/
theorem Segment.unique (h : Segment next p l none) (h' : Segment next p l' none) : l = l' := by
  induction l generalizing p l' with
  | nil =>
    obtain rfl := segment_nil_iff.mp h
    cases h'
    rfl
  | cons a l ih =>
    obtain ⟨rfl, r, ha, hl⟩ := segment_cons_iff.mp h
    cases h' with
    | cons ha' hl' =>
      rw [ha] at ha'
      cases ha'
      rw [ih hl hl']

/-- A list does not come back to a cell. -/
theorem Segment.nodup (h : Segment next p l none) : l.Nodup := by
  induction l generalizing p with
  | nil => exact List.nodup_nil
  | cons a l ih =>
    obtain ⟨rfl, r, ha, hl⟩ := segment_cons_iff.mp h
    refine List.nodup_cons.mpr ⟨fun hmem => ?_, ih hl⟩
    -- the list from the second visit on would be the whole list
    obtain ⟨l₁, l₂, rfl⟩ := List.append_of_mem hmem
    obtain ⟨s, -, hl₂⟩ := Segment.append_iff.mp hl
    obtain ⟨rfl, -⟩ := segment_cons_iff.mp hl₂
    have hlength := congrArg List.length (h.unique hl₂)
    simp only [List.length_cons, List.length_append] at hlength
    omega

/-- The cells that are reached one after the other are the cells of the list. -/
theorem Segment.last (h : Segment next p (l ++ [a]) q) : next a = some q := by
  obtain ⟨r, -, hlast⟩ := Segment.append_iff.mp h
  obtain ⟨-, s, ha, hnil⟩ := segment_cons_iff.mp hlast
  rwa [segment_nil_iff.mp hnil] at ha

variable [DecidableEq A]

/-- A cell that has no next one is hung on the last cell of a list. -/
theorem Segment.hang (h : Segment next p (l ++ [b]) none) (ha : next a = some none)
    (hnew : a ∉ l ++ [b]) :
    Segment (Function.update next b (some (some a))) p (l ++ [b] ++ [a]) none := by
  have hb : b ∉ l := fun hb => (List.nodup_append.mp h.nodup).2.2 b hb b List.mem_cons_self rfl
  have hab : a ≠ b := fun hab => hnew (hab ▸ List.mem_append_right _ List.mem_cons_self)
  obtain ⟨r, hl, hlast⟩ := Segment.append_iff.mp h
  obtain ⟨rfl, -⟩ := segment_cons_iff.mp hlast
  rw [List.append_assoc, List.singleton_append]
  refine Segment.append_iff.mpr ⟨some b, hl.congr fun x hx => ?_, .cons ?_ (.cons ?_ (.nil none))⟩
  · have hxb : x ≠ b := fun hxb => hb (hxb ▸ hx)
    exact Function.update_of_ne hxb _ _
  · exact Function.update_self _ _ _
  · rw [Function.update_of_ne hab, ha]

/-- **A new cell at the end**: its address is written into the last cell of a list. -/
theorem Segment.push (h : Segment next p (l ++ [a]) none) (hb : next b = none) :
    Segment (Function.update (Function.update next b (some none)) a (some (some b))) p
      (l ++ [a, b]) none := by
  have hnew : b ∉ l ++ [a] := by
    intro hmem
    have hsome := h.isSome hmem
    rw [hb] at hsome
    cases hsome
  have hsame : ∀ x ∈ l ++ [a], Function.update next b (some none) x = next x := fun x hx =>
    have hxb : x ≠ b := fun hxb => hnew (hxb ▸ hx)
    Function.update_of_ne hxb _ _
  have hpush := (h.congr hsame).hang (Function.update_self b _ next) hnew
  rwa [List.append_assoc] at hpush

end CCSim
