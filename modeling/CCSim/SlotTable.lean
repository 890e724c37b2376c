/-
# The slot table in memory

`ptr_array.c`: the array `data` of pointers with room for `allocated_size` of them, the first `size`
of which are in use or free (`NULL`).  `ptr_array_put` takes the first free slot, or a new one, for
which it doubles the room if there is none left.  `PtrArrayMem` has the array as `realloc` returned
it, with whatever was in the new part; an access outside it, or an assertion that fails, is `none`.

`PtrArray` of `Store.lean` is the abstract table, the slots up to `size` (`PtrArrayMem.slots`), and
`PtrArrayMem.Holds` says that they have what was stored last under the live ids.  Puts and frees
keep it, so `slot_table` holds after any of them.  There is one limit: the room is an
`unsigned int`, and doubled from `2 ^ 31` it is 0.  The put that comes then writes outside the
array (`slot_table_overflow`).

`malloc` does not fail here.
-/
import CCSim.Cluster
import CCSim.Store
import Mathlib.Data.Finset.Card
import Mathlib.Data.List.Sort

namespace CCSim

variable {α : Type}

/-! ## 1. The array -/

/-- `ptr_array_t` -/
structure PtrArrayMem (α : Type) where
  size : ℕ
  allocatedSize : ℕ
  data : List (Option α)

namespace PtrArrayMem

/-- `ptr_array_init` -/
def init : PtrArrayMem α := ⟨0, 0, []⟩

/-- `ptr_array_get` -/
def get (a : PtrArrayMem α) (id : ℕ) : Option (Option α) :=
  if id < a.size then a.data[id]? else none

/-- `ptr_array_set` -/
def set (a : PtrArrayMem α) (id : ℕ) (ptr : Option α) : Option (PtrArrayMem α) :=
  if id < a.size ∧ id < a.data.length then some { a with data := a.data.set id ptr } else none

/-- The loop of `ptr_array_put`: the first of the slots from `i` on, `n` of them, that is free. -/
def firstFree (data : List (Option α)) : ℕ → ℕ → Option (Option ℕ)
  | 0, _ => some none
  | n + 1, i =>
    match data[i]? with
    | none => none
    | some none => some (some i)
    | some (some _) => firstFree data n (i + 1)

/-- The room is made, or doubled; `fresh` is what is in the new part. -/
def grow (a : PtrArrayMem α) (fresh : ℕ → Option α) : PtrArrayMem α :=
  let allocatedSize := if a.allocatedSize = 0 then 4 else a.allocatedSize * 2 % uintSize
  { a with
    allocatedSize
    data := (List.range allocatedSize).map fun i => (a.data[i]?).getD (fresh i) }

/-- What `ptr_array_put` does if no slot is free. -/
def putLast (a : PtrArrayMem α) (ptr : Option α) : Option (PtrArrayMem α × ℕ) :=
  if a.size < a.data.length then
    some ({ a with size := (a.size + 1) % uintSize, data := a.data.set a.size ptr }, a.size)
  else none

/-- `ptr_array_put` -/
def put (a : PtrArrayMem α) (ptr : Option α) (fresh : ℕ → Option α) :
    Option (PtrArrayMem α × ℕ) :=
  if ptr.isNone then none
  else
    match firstFree a.data a.size 0 with
    | none => none
    | some (some i) => some ({ a with data := a.data.set i ptr }, i)
    | some none => if a.size = a.allocatedSize then (a.grow fresh).putLast ptr else a.putLast ptr

/-- The loop of `ptr_array_foreach`: what `f` is called with. -/
def foreachFrom (data : List (Option α)) : ℕ → ℕ → Option (List (ℕ × α))
  | 0, _ => some []
  | n + 1, i =>
    match data[i]? with
    | none => none
    | some none => foreachFrom data n (i + 1)
    | some (some x) => (foreachFrom data n (i + 1)).map ((i, x) :: ·)

/-- `ptr_array_foreach` -/
def foreach (a : PtrArrayMem α) : Option (List (ℕ × α)) := foreachFrom a.data a.size 0

/-- The slots that have been used so far. -/
def slots (a : PtrArrayMem α) : PtrArray α := a.data.take a.size

end PtrArrayMem

/-! ## 2. The first free slot -/

theorem ptrArrayFree_le (a : PtrArray α) : ptrArrayFree a ≤ a.length := by
  induction a with
  | nil => exact Nat.le_refl 0
  | cons x a ih =>
    cases x with
    | none => exact Nat.zero_le _
    | some x => exact Nat.succ_le_succ ih

/-- All slots before the first free one are live. -/
theorem ptrArrayGet_of_lt_free {a : PtrArray α} {i : ℕ} (h : i < ptrArrayFree a) :
    (ptrArrayGet a i).isSome := by
  induction a generalizing i with
  | nil => cases h
  | cons x a ih =>
    cases x with
    | none => cases h
    | some x =>
      cases i with
      | zero => rfl
      | succ i => exact ih (Nat.lt_of_succ_lt_succ h)

theorem ptrArrayPut_of_lt {a : PtrArray α} (h : ptrArrayFree a < a.length) (x : α) :
    ptrArrayPut x a = a.set (ptrArrayFree a) (some x) := by
  induction a with
  | nil => cases h
  | cons y a ih =>
    cases y with
    | none => rfl
    | some y => rw [ptrArrayPut, ptrArrayFree, List.set_cons_succ, ih (Nat.lt_of_succ_lt_succ h)]

theorem ptrArrayPut_of_eq {a : PtrArray α} (h : ptrArrayFree a = a.length) (x : α) :
    ptrArrayPut x a = a ++ [some x] := by
  induction a with
  | nil => rfl
  | cons y a ih =>
    cases y with
    | none => cases h
    | some y => rw [ptrArrayPut, ih (Nat.succ.inj h), List.cons_append]

/-- The loop finds it. -/
theorem firstFree_eq {data : List (Option α)} {n i : ℕ} (h : i + n ≤ data.length) :
    PtrArrayMem.firstFree data n i =
      some (if ptrArrayFree ((data.drop i).take n) < n then
        some (i + ptrArrayFree ((data.drop i).take n)) else none) := by
  induction n generalizing i with
  | zero => rfl
  | succ n ih =>
    have hlt : i < data.length := by omega
    rw [List.drop_eq_getElem_cons hlt, List.take_succ_cons, PtrArrayMem.firstFree,
      List.getElem?_eq_getElem hlt]
    cases hx : data[i] with
    | none => rfl
    | some x =>
      dsimp only
      rw [ih (by omega), ptrArrayFree]
      congr 1
      split
      · rw [if_pos (by omega), Nat.add_assoc, Nat.add_comm 1]
      · rw [if_neg (by omega)]

/-! ## 3. The invariant -/

namespace PtrArrayMem

/-- The slots up to `size` are those of the table with what `live` says, and there is room for them:
none yet, or a power of two up to `2 ^ 31`. -/
structure Holds (a : PtrArrayMem α) (live : ℕ → Option α) : Prop where
  length : a.data.length = a.allocatedSize
  size_le : a.size ≤ a.allocatedSize
  room : a.allocatedSize = 0 ∨ ∃ k, 2 ≤ k ∧ k ≤ 31 ∧ a.allocatedSize = 2 ^ k
  get_slots : ∀ id, ptrArrayGet a.slots id = live id

variable {a : PtrArrayMem α} {live : ℕ → Option α} {id : ℕ}

theorem Holds.slots_length (h : a.Holds live) : a.slots.length = a.size := by
  rw [slots, List.length_take, h.length, Nat.min_eq_left h.size_le]

theorem Holds.allocatedSize_le (h : a.Holds live) : a.allocatedSize ≤ 2 ^ 31 := by
  rcases h.room with h0 | ⟨k, -, hk, hpow⟩
  · rw [h0]
    exact Nat.zero_le _
  · rw [hpow]
    exact Nat.pow_le_pow_right (by decide) hk

theorem Holds.free_le (h : a.Holds live) : ptrArrayFree a.slots ≤ a.size :=
  h.slots_length ▸ ptrArrayFree_le a.slots

/-- A live slot is in use. -/
theorem Holds.lt_size (h : a.Holds live) (hid : (live id).isSome) :
    id < a.size ∧ a.data[id]? = some (live id) := by
  rw [← h.get_slots, ptrArrayGet] at hid ⊢
  rw [slots, List.getElem?_take] at hid ⊢
  split at hid
  · rename_i hlt
    rw [if_pos hlt]
    cases hx : a.data[id]? with
    | none =>
      rw [hx] at hid
      cases hid
    | some x => exact ⟨hlt, rfl⟩
  · cases hid

/-- What the first slots of the doubled room are, and how many there are. -/
theorem grow_take (h : a.Holds live) (hfull : a.size = a.allocatedSize) (hsize : a.size < 2 ^ 31)
    (fresh : ℕ → Option α) :
    (a.grow fresh).data.take a.size = a.slots ∧
      (a.grow fresh).data.length = (a.grow fresh).allocatedSize ∧
      a.size < (a.grow fresh).allocatedSize ∧
      ∃ k, 2 ≤ k ∧ k ≤ 31 ∧ (a.grow fresh).allocatedSize = 2 ^ k := by
  have hroom : a.size < (a.grow fresh).allocatedSize ∧
      ∃ k, 2 ≤ k ∧ k ≤ 31 ∧ (a.grow fresh).allocatedSize = 2 ^ k := by
    rw [grow]
    dsimp only
    rcases h.room with h0 | ⟨k, hk, -, hpow⟩
    · rw [if_pos h0, hfull, h0]
      exact ⟨by decide, 2, by decide, by decide, by decide⟩
    · rw [hfull, hpow] at hsize
      have hk31 : k < 31 := (Nat.pow_lt_pow_iff_right (by decide)).mp hsize
      have hpos : 0 < 2 ^ k := Nat.two_pow_pos k
      rw [if_neg (by omega), hfull, hpow, ← Nat.pow_succ, Nat.mod_eq_of_lt]
      · exact ⟨Nat.pow_lt_pow_right (by decide) (Nat.lt_succ_self k), k + 1, by omega, by omega,
          rfl⟩
      · exact Nat.pow_lt_pow_right (by decide) (by omega)
  refine ⟨?_, ?_, hroom⟩
  · -- the old part is what it was
    refine List.ext_getElem? fun i => ?_
    rw [slots, List.getElem?_take, List.getElem?_take]
    split
    · rename_i hi
      have hdata : i < a.data.length := by rw [h.length, ← hfull]; exact hi
      have hrange : i < (a.grow fresh).allocatedSize := hi.trans hroom.1
      rw [grow] at hrange ⊢
      dsimp only at hrange ⊢
      rw [List.getElem?_map, List.getElem?_range hrange, Option.map_some,
        List.getElem?_eq_getElem hdata, Option.getD_some]
    · rfl
  · rw [grow, List.length_map, List.length_range]

/-- Doubled from `2 ^ 31`, the room is gone. -/
theorem grow_overflow (hfull : a.allocatedSize = 2 ^ 31) (fresh : ℕ → Option α) :
    (a.grow fresh).allocatedSize = 0 ∧ (a.grow fresh).data = [] := by
  have hsize : (if a.allocatedSize = 0 then 4 else a.allocatedSize * 2 % uintSize) = 0 := by
    rw [hfull]
    decide
  rw [grow]
  dsimp only
  rw [hsize]
  exact ⟨rfl, rfl⟩

/-! ## 4. Puts and frees -/

/-- The slot after the last one is written, if there is room for it. -/
theorem putLast_eq (hlt : a.size < a.data.length) (hsize : a.size + 1 < uintSize) (x : α) :
    ∃ a', a.putLast (some x) = some (a', a.size) ∧ a'.slots = a.slots ++ [some x] ∧
      a'.size = a.size + 1 ∧ a'.data.length = a.data.length ∧
      a'.allocatedSize = a.allocatedSize := by
  refine ⟨_, if_pos hlt, ?_, Nat.mod_eq_of_lt hsize, List.length_set, rfl⟩
  rw [slots, slots]
  dsimp only
  rw [Nat.mod_eq_of_lt hsize, List.take_add_one, List.take_set_of_le (Nat.le_refl _),
    List.getElem?_set_self hlt]
  rfl

/-- What the loop of `ptr_array_put` finds. -/
theorem Holds.firstFree (h : a.Holds live) : firstFree a.data a.size 0 =
    some (if ptrArrayFree a.slots < a.size then some (ptrArrayFree a.slots) else none) := by
  rw [firstFree_eq (by rw [Nat.zero_add, h.length]; exact h.size_le), List.drop_zero, Nat.zero_add]
  rfl

/-- The new slot is live, and all others are as they were. -/
theorem Holds.get_put (h : a.Holds live) {x : α} {a' : PtrArrayMem α}
    (hslots : a'.slots = ptrArrayPut x a.slots) (id : ℕ) :
    ptrArrayGet a'.slots id = Function.update live (ptrArrayFree a.slots) (some x) id := by
  rw [hslots, ptrArrayPut_get, Function.update_apply]
  split
  · rfl
  · exact h.get_slots id

/-- **A put** takes the first free slot, as in the abstract table. -/
theorem Holds.put (h : a.Holds live) (x : α) (fresh : ℕ → Option α)
    (hfree : ptrArrayFree a.slots < 2 ^ 31) :
    ∃ a', a.put (some x) fresh = some (a', ptrArrayFree a.slots) ∧
      a'.slots = ptrArrayPut x a.slots ∧
      a'.Holds (Function.update live (ptrArrayFree a.slots) (some x)) := by
  rw [PtrArrayMem.put, if_neg (by simp), h.firstFree]
  by_cases hlt : ptrArrayFree a.slots < a.size
  · rw [if_pos hlt]
    have hslots : (a.data.set (ptrArrayFree a.slots) (some x)).take a.size =
        ptrArrayPut x a.slots := by
      rw [ptrArrayPut_of_lt (h.slots_length ▸ hlt), List.take_set]
      rfl
    refine ⟨_, rfl, hslots, ?_, h.size_le, h.room, h.get_put hslots⟩
    rw [List.length_set]
    exact h.length
  · rw [if_neg hlt]
    have heq : ptrArrayFree a.slots = a.size := Nat.le_antisymm h.free_le (Nat.not_lt.mp hlt)
    have hput := ptrArrayPut_of_eq (heq.trans h.slots_length.symm) x
    have hnext : a.size + 1 < uintSize := by
      rw [heq] at hfree
      exact Nat.lt_of_le_of_lt (Nat.succ_le_of_lt hfree) (by decide)
    rw [heq] at hfree
    dsimp only
    by_cases hfull : a.size = a.allocatedSize
    · rw [if_pos hfull]
      obtain ⟨htake, hlength, hroom, hpower⟩ := grow_take h hfull hfree fresh
      obtain ⟨a', ha', hslots, hsize', hlength', hroom'⟩ :=
        putLast_eq (a := a.grow fresh) (hlength ▸ hroom) hnext x
      have hslots' : a'.slots = ptrArrayPut x a.slots := by rw [hslots, hput, ← htake]; rfl
      refine ⟨a', by rw [heq]; exact ha', hslots', ?_, ?_, ?_, h.get_put hslots'⟩
      · rw [hlength', hlength, hroom']
      · rw [hsize', hroom']
        exact hroom
      · rw [hroom']
        exact .inr hpower
    · rw [if_neg hfull]
      have hlt' : a.size < a.data.length := h.length ▸ Nat.lt_of_le_of_ne h.size_le hfull
      obtain ⟨a', ha', hslots, hsize', hlength', hroom'⟩ := putLast_eq hlt' hnext x
      have hslots' : a'.slots = ptrArrayPut x a.slots := hslots.trans hput.symm
      refine ⟨a', by rw [heq]; exact ha', hslots', ?_, ?_, ?_, h.get_put hslots'⟩
      · rw [hlength', h.length, hroom']
      · rw [hsize', hroom', ← h.length]
        exact hlt'
      · rw [hroom']
        exact h.room

/-- With `2 ^ 31` live slots, a put writes outside the array. -/
theorem Holds.put_overflow (h : a.Holds live) (x : α) (fresh : ℕ → Option α)
    (hfree : 2 ^ 31 ≤ ptrArrayFree a.slots) : a.put (some x) fresh = none := by
  have hsize : a.size = 2 ^ 31 :=
    Nat.le_antisymm (h.size_le.trans h.allocatedSize_le) (hfree.trans h.free_le)
  have hroom : a.allocatedSize = 2 ^ 31 :=
    Nat.le_antisymm h.allocatedSize_le (hsize ▸ h.size_le)
  rw [PtrArrayMem.put, if_neg (by simp), h.firstFree, if_neg (by omega)]
  dsimp only
  rw [if_pos (hsize.trans hroom.symm), putLast, (grow_overflow hroom fresh).2]
  exact if_neg (Nat.not_lt_zero _)

/-- **A free** changes the slot it is about. -/
theorem Holds.free (h : a.Holds live) (hid : (live id).isSome) :
    ∃ a', a.set id none = some a' ∧ a'.Holds (Function.update live id none) := by
  obtain ⟨hlt, hdata⟩ := h.lt_size hid
  have hlength : id < a.data.length := h.length ▸ hlt.trans_le h.size_le
  refine ⟨_, if_pos ⟨hlt, hlength⟩, ?_, h.size_le, h.room, fun i => ?_⟩
  · rw [List.length_set]
    exact h.length
  · obtain ⟨x, hx⟩ := Option.isSome_iff_exists.mp hid
    have hslots : ({ a with data := a.data.set id none } : PtrArrayMem α).slots =
        ptrArraySet a.slots id none := List.take_set
    rw [hslots, ptrArraySet_get ((h.get_slots id).trans hx), Function.update_apply]
    split
    · rfl
    · exact h.get_slots i

theorem Holds.get (h : a.Holds live) (hid : (live id).isSome) : a.get id = some (live id) := by
  obtain ⟨hlt, hdata⟩ := h.lt_size hid
  rw [PtrArrayMem.get, if_pos hlt, hdata]

/-- `ptr_array_foreach` goes through the live slots, once each, in the order of their ids. -/
theorem foreachFrom_eq {data : List (Option α)} {n i : ℕ} (h : i + n ≤ data.length) :
    ∃ visited, foreachFrom data n i = some visited ∧ (visited.map Prod.fst).Pairwise (· < ·) ∧
      ∀ id x, (id, x) ∈ visited ↔ i ≤ id ∧ id < i + n ∧ data[id]? = some (some x) := by
  induction n generalizing i with
  | zero =>
    refine ⟨[], rfl, .nil, fun id x => ?_⟩
    constructor
    · intro h
      cases h
    · rintro ⟨hle, hlt, -⟩
      exact absurd hlt (Nat.not_lt.mpr hle)
  | succ n ih =>
    have hlt : i < data.length := by omega
    obtain ⟨visited, hvisited, hsorted, hmem⟩ := ih (i := i + 1) (by omega)
    cases hx : data[i] with
    | none =>
      have hget : data[i]? = some none := hx ▸ List.getElem?_eq_getElem hlt
      refine ⟨visited, ?_, hsorted, fun id x => ?_⟩
      · rw [foreachFrom, hget]
        exact hvisited
      · rw [hmem]
        constructor
        · rintro ⟨hle, hlt, hid⟩
          exact ⟨by omega, by omega, hid⟩
        · rintro ⟨hle, hlt, hid⟩
          have hne : i ≠ id := by
            rintro rfl
            rw [hget] at hid
            cases hid
          exact ⟨by omega, by omega, hid⟩
    | some y =>
      have hget : data[i]? = some (some y) := hx ▸ List.getElem?_eq_getElem hlt
      refine ⟨(i, y) :: visited, ?_, ?_, fun id x => ?_⟩
      · rw [foreachFrom, hget]
        dsimp only
        rw [hvisited, Option.map_some]
      · rw [List.map_cons, List.pairwise_cons]
        refine ⟨fun id hid => ?_, hsorted⟩
        obtain ⟨e, he, rfl⟩ := List.mem_map.mp hid
        exact ((hmem e.1 e.2).mp he).1
      · rw [List.mem_cons, hmem, Prod.mk.injEq]
        constructor
        · rintro (⟨rfl, rfl⟩ | ⟨hle, hlt, hid⟩)
          · exact ⟨Nat.le_refl _, by omega, hget⟩
          · exact ⟨by omega, by omega, hid⟩
        · rintro ⟨hle, hlt, hid⟩
          by_cases hne : i = id
          · subst hne
            rw [hget] at hid
            cases hid
            exact .inl ⟨rfl, rfl⟩
          · exact .inr ⟨by omega, by omega, hid⟩

theorem Holds.foreach (h : a.Holds live) :
    ∃ visited, a.foreach = some visited ∧ (visited.map Prod.fst).Pairwise (· < ·) ∧
      ∀ id x, (id, x) ∈ visited ↔ live id = some x := by
  have hlength : 0 + a.size ≤ a.data.length := by
    rw [Nat.zero_add, h.length]
    exact h.size_le
  obtain ⟨visited, hvisited, hsorted, hmem⟩ := foreachFrom_eq hlength
  refine ⟨visited, hvisited, hsorted, fun id x => ?_⟩
  rw [hmem, Nat.zero_add]
  constructor
  · rintro ⟨-, hlt, hid⟩
    rw [← h.get_slots, ptrArrayGet, slots, List.getElem?_take, if_pos hlt, hid]
    rfl
  · intro hlive
    obtain ⟨hlt, hid⟩ := h.lt_size (by rw [hlive]; rfl)
    exact ⟨Nat.zero_le _, hlt, hlive ▸ hid⟩

theorem holds_init : (init : PtrArrayMem α).Holds fun _ => none :=
  ⟨rfl, Nat.le_refl _, .inl rfl, fun _ => rfl⟩

/-- The slots before the first free one are live, that one is not. -/
theorem Holds.live_free (h : a.Holds live) :
    live (ptrArrayFree a.slots) = none ∧ ∀ j < ptrArrayFree a.slots, (live j).isSome := by
  refine ⟨h.get_slots _ ▸ ptrArrayFree_get a.slots, fun j hj => ?_⟩
  rw [← h.get_slots]
  exact ptrArrayGet_of_lt_free hj

/-- The live ids are finitely many. -/
theorem Holds.exists_ids (h : a.Holds live) :
    ∃ ids : Finset ℕ, ∀ id, id ∈ ids ↔ (live id).isSome := by
  refine ⟨(Finset.range a.size).filter fun id => (live id).isSome, fun id => ?_⟩
  rw [Finset.mem_filter, Finset.mem_range]
  constructor
  · rintro ⟨-, hid⟩
    exact hid
  · intro hid
    exact ⟨(h.lt_size hid).1, hid⟩

/-- `2 ^ 31` slots are live only if there is no free one before. -/
theorem Holds.card_lt_iff (h : a.Holds live) {ids : Finset ℕ}
    (hids : ∀ id, id ∈ ids ↔ (live id).isSome) :
    ids.card < 2 ^ 31 ↔ ptrArrayFree a.slots < 2 ^ 31 := by
  obtain ⟨hfree, hlive⟩ := h.live_free
  constructor
  · intro hcard
    by_contra hn
    have hsub : Finset.range (2 ^ 31) ⊆ ids := by
      intro id hid
      exact (hids id).mpr (hlive id ((Finset.mem_range.mp hid).trans_le (Nat.le_of_not_lt hn)))
    have hle := Finset.card_le_card hsub
    rw [Finset.card_range] at hle
    omega
  · intro hlt
    have hsub : ids ⊆ (Finset.range (2 ^ 31)).erase (ptrArrayFree a.slots) := by
      intro id hid
      have hid' := (hids id).mp hid
      have hlt' := (h.lt_size hid').1.trans_le (h.size_le.trans h.allocatedSize_le)
      refine Finset.mem_erase.mpr ⟨?_, Finset.mem_range.mpr hlt'⟩
      rintro rfl
      rw [hfree] at hid'
      cases hid'
    have hle := Finset.card_le_card hsub
    rw [Finset.card_erase_of_mem (Finset.mem_range.mpr hlt), Finset.card_range] at hle
    omega

end PtrArrayMem

/-! ## 5. Any puts and frees -/

/-- What puts, and frees of live ids, make of the array, and what was stored last under the live
ids.  A put comes with what is in the new room, if it needs some. -/
inductive PtrArrayRun : PtrArrayMem α → (ℕ → Option α) → Prop
  | init : PtrArrayRun .init fun _ => none
  | put {a a' : PtrArrayMem α} {live : ℕ → Option α} {id : ℕ} (x : α) (fresh : ℕ → Option α)
      (h : PtrArrayRun a live) (hput : a.put (some x) fresh = some (a', id)) :
      PtrArrayRun a' (Function.update live id (some x))
  | free {a a' : PtrArrayMem α} {live : ℕ → Option α} {id : ℕ} (h : PtrArrayRun a live)
      (hlive : (live id).isSome) (hset : a.set id none = some a') :
      PtrArrayRun a' (Function.update live id none)

open PtrArrayMem in
theorem PtrArrayRun.holds {a : PtrArrayMem α} {live : ℕ → Option α} (h : PtrArrayRun a live) :
    a.Holds live := by
  induction h with
  | init => exact holds_init
  | @put a a' live id x fresh _ hput ih =>
    by_cases hfree : ptrArrayFree a.slots < 2 ^ 31
    · obtain ⟨a'', hput', -, hholds⟩ := ih.put x fresh hfree
      rw [hput] at hput'
      cases hput'
      exact hholds
    · rw [ih.put_overflow x fresh (Nat.le_of_not_lt hfree)] at hput
      cases hput
  | free _ hlive hset ih =>
    obtain ⟨a'', hset', hholds⟩ := ih.free hlive
    rw [hset] at hset'
    cases hset'
    exact hholds

/-- `n` puts make the slots before `n` live. -/
theorem exists_full_table {n : ℕ} (hn : n ≤ 2 ^ 31) :
    ∃ a, PtrArrayRun a fun id => if id < n then some () else none := by
  induction n with
  | zero => exact ⟨.init, .init⟩
  | succ n ih =>
    obtain ⟨a, hrun⟩ := ih (Nat.le_of_succ_le hn)
    obtain ⟨hfree, hbefore⟩ := hrun.holds.live_free
    -- the first free slot is the next one
    have heq : ptrArrayFree a.slots = n := by
      refine Nat.le_antisymm ?_ ?_
      · by_contra hlt
        have hlive := hbefore n (Nat.lt_of_not_le hlt)
        rw [if_neg (Nat.lt_irrefl n)] at hlive
        cases hlive
      · by_contra hlt
        rw [if_pos (Nat.lt_of_not_le hlt)] at hfree
        cases hfree
    obtain ⟨a', hput, -⟩ := hrun.holds.put () (fun _ => none) (heq ▸ hn)
    refine ⟨a', ?_⟩
    have hrun' := hrun.put () _ hput
    rw [heq] at hrun'
    convert hrun' using 1
    funext id
    rw [Function.update_apply]
    by_cases hid : id = n
    · rw [if_pos hid, if_pos (by omega)]
    · rw [if_neg hid]
      by_cases hlt : id < n
      · rw [if_pos hlt, if_pos (by omega)]
      · rw [if_neg hlt, if_neg (by omega)]

end CCSim
