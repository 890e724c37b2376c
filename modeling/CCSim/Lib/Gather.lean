/-
# Putting an answer together from its parts

Somebody is asked for many values, asks others for them, and gets them back in any order, each with
its place.  What has come back so far is read off the history (`gathered`), as is what has been asked
for and not been answered (`pending`).  The values go to their places one by one (`fillIn`), and a
running maximum is kept of their times.  Once every place has come back exactly once, the order does
not matter: each value is at its place (`getElem?_fillIn`), and the maximum is that of all of them
(`isGreatest_foldr_max`).
-/
import Mathlib.Data.List.Basic
import Mathlib.Data.List.Nodup
import Mathlib.Order.Bounds.Basic
import Mathlib.Order.Lattice
import Mathlib.Order.MinMax

namespace CCSim

variable {A α β : Type}

/-! ## 1. What a history says -/

/-- What has been added since the last start; the history and what has been added have the latest
first. -/
def gathered (starts : A → Bool) (adds : A → Option α) : List A → List α
  | [] => []
  | a :: h => if starts a then [] else (adds a).toList ++ gathered starts adds h

/-- The last request that was made, unless it has been answered since. -/
def pending (asks : A → Option α) (answers : A → Bool) : List A → Option α
  | [] => none
  | a :: h => (asks a).or (if answers a then none else pending asks answers h)

section History

variable {starts answers : A → Bool} {adds asks : A → Option α} {a : A} {h : List A}

theorem gathered_cons : gathered starts adds (a :: h) =
    if starts a then [] else (adds a).toList ++ gathered starts adds h := rfl

theorem pending_cons : pending asks answers (a :: h) =
    (asks a).or (if answers a then none else pending asks answers h) := rfl

theorem gathered_of_starts (ha : starts a) : gathered starts adds (a :: h) = [] := by
  rw [gathered_cons, if_pos ha]

theorem gathered_of_adds {x : α} (ha : starts a = false) (hx : adds a = some x) :
    gathered starts adds (a :: h) = x :: gathered starts adds h := by
  simp [gathered_cons, ha, hx]

theorem gathered_of_neither (ha : starts a = false) (hx : adds a = none) :
    gathered starts adds (a :: h) = gathered starts adds h := by
  simp [gathered_cons, ha, hx]

theorem pending_of_asks {x : α} (hx : asks a = some x) : pending asks answers (a :: h) = some x := by
  rw [pending_cons, hx, Option.some_or]

theorem pending_of_answers (hx : asks a = none) (ha : answers a) :
    pending asks answers (a :: h) = none := by
  simp [pending_cons, hx, ha]

theorem pending_of_neither (hx : asks a = none) (ha : answers a = false) :
    pending asks answers (a :: h) = pending asks answers h := by
  simp [pending_cons, hx, ha]

/-- If nobody asks before the last request is answered, and nobody answers what was not asked, then
there is one answer for every request, except for the one that is pending. -/
theorem length_flatMap_pending {asks : A → List α} {answers : A → List β} {h : List A}
    (hask : ∀ later a past, h = later ++ a :: past → asks a ≠ [] → (asks a).length = 1 ∧
      answers a = [] ∧ pending (fun a => (asks a).head?) (fun a => !(answers a).isEmpty) past = none)
    (hanswer : ∀ later a past, h = later ++ a :: past → answers a ≠ [] → (answers a).length = 1 ∧
      asks a = [] ∧ (pending (fun a => (asks a).head?) (fun a => !(answers a).isEmpty) past).isSome) :
    (h.flatMap asks).length = (h.flatMap answers).length +
      if (pending (fun a => (asks a).head?) (fun a => !(answers a).isEmpty) h).isSome then 1
        else 0 := by
  induction h with
  | nil => rfl
  | cons a h ih =>
    have ih := ih (fun later b past hh => hask (a :: later) b past (by rw [hh]; rfl))
      fun later b past hh => hanswer (a :: later) b past (by rw [hh]; rfl)
    rw [List.flatMap_cons, List.flatMap_cons, List.length_append, List.length_append, ih]
    by_cases ha : asks a = []
    · by_cases hb : answers a = []
      · simp [pending_cons, ha, hb]
      · obtain ⟨hone, -, hsome⟩ := hanswer [] a h rfl hb
        simp [pending_cons, ha, hb, hone, hsome, Nat.add_comm]
    · obtain ⟨hone, hb, hnone⟩ := hask [] a h rfl ha
      obtain ⟨x, hx⟩ := List.length_eq_one_iff.mp hone
      simp [pending_cons, hx, hb, hnone, Nat.add_comm]

end History

/-! ## 2. Values in their places -/

/-- Every value goes to its place; the last one first. -/
def fillIn (values : List β) (parts : List (ℕ × β)) : List β :=
  parts.foldr (fun part values => values.set part.1 part.2) values

@[simp]
theorem fillIn_nil (values : List β) : fillIn values [] = values := rfl

@[simp]
theorem fillIn_cons (values : List β) (part : ℕ × β) (parts : List (ℕ × β)) :
    fillIn values (part :: parts) = (fillIn values parts).set part.1 part.2 := rfl

@[simp]
theorem length_fillIn (values : List β) (parts : List (ℕ × β)) :
    (fillIn values parts).length = values.length := by
  induction parts with
  | nil => rfl
  | cons part parts ih => simp [ih]

/-- If no place comes back twice, every value is at its place. -/
theorem getElem?_fillIn {values : List β} {parts : List (ℕ × β)} (hnodup : (parts.map Prod.fst).Nodup)
    {i : ℕ} {x : β} (hmem : (i, x) ∈ parts) (hi : i < values.length) :
    (fillIn values parts)[i]? = some x := by
  induction parts with
  | nil => cases hmem
  | cons part parts ih =>
    rw [List.map_cons, List.nodup_cons] at hnodup
    rw [fillIn_cons, List.getElem?_set, length_fillIn]
    rcases List.mem_cons.mp hmem with rfl | hmem
    · simp [hi]
    · have hne : part.1 ≠ i := by
        rintro rfl
        exact hnodup.1 (List.mem_map.mpr ⟨_, hmem, rfl⟩)
      rw [if_neg hne]
      exact ih hnodup.2 hmem

/-- The places of a list, one by one. -/
theorem map_fst_mapIdx (keys : List α) :
    (keys.mapIdx fun i key => (i, key)).map Prod.fst = List.range keys.length := by
  refine List.ext_getElem (by simp) fun i _ _ => ?_
  simp

theorem nodup_of_perm_mapIdx {parts : List (ℕ × α)} {keys : List α}
    (h : parts.Perm (keys.mapIdx fun i key => (i, key))) : (parts.map Prod.fst).Nodup := by
  rw [(h.map Prod.fst).nodup_iff, map_fst_mapIdx]
  exact List.nodup_range

/-! ## 3. The maximum -/

section Maximum

variable [LinearOrder α] {b : α} {l : List α}

theorem foldr_max_le_iff {c : α} : l.foldr max b ≤ c ↔ b ≤ c ∧ ∀ x ∈ l, x ≤ c := by
  induction l with
  | nil => simp
  | cons x l ih =>
    simp only [List.foldr_cons, max_le_iff, ih, List.forall_mem_cons]
    tauto

theorem le_foldr_max : b ≤ l.foldr max b := (foldr_max_le_iff.mp le_rfl).1

theorem foldr_max_mem : l.foldr max b = b ∨ l.foldr max b ∈ l := by
  induction l with
  | nil => exact .inl rfl
  | cons x l ih =>
    rcases max_choice x (l.foldr max b) with h | h
    · exact .inr (by rw [List.foldr_cons, h]; exact List.mem_cons_self)
    · rw [List.foldr_cons, h]
      exact ih.imp_right (List.mem_cons_of_mem x)

/-- A running maximum that starts low enough is the maximum. -/
theorem isGreatest_foldr_max (hl : l ≠ []) (hb : ∀ x ∈ l, b ≤ x) :
    IsGreatest {x | x ∈ l} (l.foldr max b) := by
  refine ⟨?_, (foldr_max_le_iff.mp le_rfl).2⟩
  rcases foldr_max_mem (b := b) (l := l) with h | h
  · obtain ⟨x, hx⟩ := List.exists_mem_of_ne_nil l hl
    have hle : x ≤ b := h ▸ (foldr_max_le_iff.mp le_rfl).2 x hx
    rw [h, le_antisymm (hb x hx) hle]
    exact hx
  · exact h

end Maximum

end CCSim
