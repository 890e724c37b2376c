/-
# The key-value store is a map

`store.c` keeps its items in 32768 chains.  `store_put` walks along a chain with a pointer to the
link it has come to (a bucket, or the `next` of an item): it overwrites the value of the item of the
key, or hangs a new item on the last link.  `StoreMem` has the links and the items as they are in
memory; reading outside it, or a walk that does not end, is `none`.

What the store is for is an association list for each bucket (`bucketPut`), and `Represents` says
which cells hold it.  One put keeps this (`Represents.put`), whatever collides with the key, so it
holds after all puts; `hash_store_is_map` reads from it what `store_get` and `store_foreach_item`
return.  `StoreMem.Holds.putValue` ties the memory to the chains of `Store.lean`.
-/
import CCSim.Lib.Cells
import CCSim.Store
import Mathlib.Data.List.Nodup
import Mathlib.Data.List.Perm.Subperm
import Mathlib.Data.Nat.Basic

namespace CCSim

variable {α : Type}

/-! ## 1. The store in memory -/

/-- `store_item_t`.  An address is the number of an item, and no address is `NULL`. -/
structure StoreItem (α : Type) where
  key : ℕ
  value : Option α
  next : Option ℕ

/-- `store_t` and the items `malloc` has given out for it. -/
structure StoreMem (α : Type) where
  numBuckets : ℕ
  buckets : List (Option ℕ)
  items : List (StoreItem α)

/-- A `store_item_t **`: the address of a bucket, or of the field `next` of an item. -/
inductive StoreLink
  | bucket (i : ℕ)
  | next (a : ℕ)

/-- `*item` -/
def StoreMem.read (s : StoreMem α) : StoreLink → Option (Option ℕ)
  | .bucket i => s.buckets[i]?
  | .next a => s.items[a]?.map StoreItem.next

/-- `*item = p` -/
def StoreMem.write (s : StoreMem α) (link : StoreLink) (p : Option ℕ) : StoreMem α :=
  match link with
  | .bucket i => { s with buckets := s.buckets.set i p }
  | .next a => { s with items := s.items.modify a fun item => { item with next := p } }

/-- `hash` -/
def StoreMem.hash (s : StoreMem α) (key : ℕ) : ℕ := key % s.numBuckets

/-- `store_new` -/
def storeNew : StoreMem α := ⟨32768, List.replicate 32768 none, []⟩

/-- The loop of `store_get`, with the steps it is given. -/
def storeGetLoop (s : StoreMem α) (key : ℕ) : ℕ → Option ℕ → Option (Option α)
  | 0, _ => none
  | _ + 1, none => some none
  | fuel + 1, some a =>
    match s.items[a]? with
    | none => none
    | some item =>
      if item.key = key then some item.value else storeGetLoop s key fuel item.next

/-- `store_get`: `some none` is `NULL`. -/
def storeGet (s : StoreMem α) (key : ℕ) : Option (Option α) :=
  match s.buckets[s.hash key]? with
  | none => none
  | some item => storeGetLoop s key (s.items.length + 1) item

/-- `malloc`, and what `store_put` writes into the new item. -/
def StoreMem.alloc (s : StoreMem α) (key : ℕ) (value : Option α) : StoreMem α :=
  { s with items := s.items ++ [⟨key, value, none⟩] }

/-- The loop of `store_put`, and what follows it. -/
def storePutLoop (s : StoreMem α) (key : ℕ) (value : Option α) :
    ℕ → StoreLink → Option (StoreMem α)
  | 0, _ => none
  | fuel + 1, link =>
    match s.read link with
    | none => none
    | some none => some ((s.alloc key value).write link (some s.items.length))
    | some (some a) =>
      match s.items[a]? with
      | none => none
      | some item =>
        if item.key = key then some { s with items := s.items.set a { item with value := value } }
        else storePutLoop s key value fuel (.next a)

/-- `store_put` -/
def storePut (s : StoreMem α) (key : ℕ) (value : Option α) : Option (StoreMem α) :=
  storePutLoop s key value (s.items.length + 1) (.bucket (s.hash key))

/-- The inner loop of `store_foreach_item`: what `fun` is called with. -/
def storeForeachLoop (s : StoreMem α) : ℕ → Option ℕ → Option (List (ℕ × Option α))
  | 0, _ => none
  | _ + 1, none => some []
  | fuel + 1, some a =>
    match s.items[a]? with
    | none => none
    | some item => (storeForeachLoop s fuel item.next).map ((item.key, item.value) :: ·)

/-- `store_foreach_item`: what `fun` is called with for the buckets from `i` on, `n` of them. -/
def storeForeachFrom (s : StoreMem α) : ℕ → ℕ → Option (List (ℕ × Option α))
  | 0, _ => some []
  | n + 1, i =>
    match s.buckets[i]? with
    | none => none
    | some item =>
      match storeForeachLoop s (s.items.length + 1) item with
      | none => none
      | some visited => (storeForeachFrom s n (i + 1)).map (visited ++ ·)

/-- `store_foreach_item` -/
def storeForeachItem (s : StoreMem α) : Option (List (ℕ × Option α)) :=
  storeForeachFrom s s.numBuckets 0

/-! ## 2. Association lists -/

/-- The association list of a bucket after a put. -/
def bucketPut (key : ℕ) (value : Option α) : List (ℕ × Option α) → List (ℕ × Option α)
  | [] => [(key, value)]
  | e :: l => if e.1 = key then (key, value) :: l else e :: bucketPut key value l

theorem lookup_cons_eq (k : ℕ) (e : ℕ × Option α) (l : List (ℕ × Option α)) :
    (e :: l).lookup k = if k = e.1 then some e.2 else l.lookup k := by
  rw [List.lookup_cons]
  by_cases h : k = e.1
  · rw [if_pos h, beq_iff_eq.mpr h]
  · rw [if_neg h, beq_eq_false_iff_ne.mpr h]

theorem bucketPut_lookup (key : ℕ) (value : Option α) (l : List (ℕ × Option α)) (k : ℕ) :
    (bucketPut key value l).lookup k = if k = key then some value else l.lookup k := by
  induction l with
  | nil => rw [bucketPut, lookup_cons_eq]
  | cons e l ih =>
    rw [bucketPut]
    by_cases he : e.1 = key
    · rw [if_pos he, lookup_cons_eq, lookup_cons_eq, he]
      by_cases h : k = key
      · rw [if_pos h, if_pos h]
      · rw [if_neg h, if_neg h, if_neg h]
    · rw [if_neg he, lookup_cons_eq, lookup_cons_eq, ih]
      by_cases h : k = e.1
      · rw [if_pos h, if_pos h, if_neg (h ▸ he)]
      · rw [if_neg h, if_neg h]

/-- A put of a key that is there replaces its value. -/
theorem bucketPut_of_mem {key : ℕ} {value : Option α} {l : List (ℕ × Option α)}
    (hkeys : (l.map Prod.fst).Nodup) (hkey : key ∈ l.map Prod.fst) :
    bucketPut key value l = l.map fun e => if e.1 = key then (key, value) else e := by
  induction l with
  | nil => cases hkey
  | cons e l ih =>
    obtain ⟨hhead, htail⟩ := List.nodup_cons.mp hkeys
    rw [bucketPut, List.map_cons]
    by_cases he : e.1 = key
    · rw [if_pos he, if_pos he]
      -- the key does not come again
      congr 1
      symm
      refine (List.map_congr_left fun e' he' => if_neg ?_).trans (List.map_id l)
      rintro heq
      rw [he, ← heq] at hhead
      exact hhead (List.mem_map_of_mem he')
    · rw [if_neg he, if_neg he, ih htail]
      rcases List.mem_cons.mp hkey with h | h
      · exact absurd h.symm he
      · exact h

/-- A put of another key comes last. -/
theorem bucketPut_of_not_mem {key : ℕ} {value : Option α} {l : List (ℕ × Option α)}
    (hkey : key ∉ l.map Prod.fst) : bucketPut key value l = l ++ [(key, value)] := by
  induction l with
  | nil => rfl
  | cons e l ih =>
    rw [List.map_cons, List.mem_cons, not_or] at hkey
    rw [bucketPut, if_neg (Ne.symm hkey.1), ih hkey.2, List.cons_append]

/-- The values of the list are the current ones. -/
theorem mem_iff_lookup {l : List (ℕ × Option α)} (hkeys : (l.map Prod.fst).Nodup) {k : ℕ}
    {v : Option α} : (k, v) ∈ l ↔ l.lookup k = some v := by
  induction l with
  | nil => simp
  | cons e l ih =>
    obtain ⟨hhead, htail⟩ := List.nodup_cons.mp hkeys
    rw [List.mem_cons, lookup_cons_eq, ih htail]
    obtain ⟨k', v'⟩ := e
    by_cases h : k = k'
    · subst h
      have hnone : l.lookup k ≠ some v := by
        intro h
        have hmem : k ∈ l.map Prod.fst := List.mem_map.mpr ⟨_, (ih htail).mpr h, rfl⟩
        exact hhead hmem
      simp only [Prod.mk.injEq, true_and, hnone, or_false, if_true, Option.some.injEq, eq_comm]
    · simp only [Prod.mk.injEq, h, false_and, false_or, if_false]

/-! ## 3. The cells of a bucket -/

def StoreMem.next (s : StoreMem α) (a : ℕ) : Option (Option ℕ) := s.items[a]?.map StoreItem.next

/-- What a cell says about the map. -/
def StoreMem.entry (s : StoreMem α) (a : ℕ) : Option (ℕ × Option α) :=
  s.items[a]?.map fun item => (item.key, item.value)

/-- From `p` on the memory holds the association list `l`, in these cells. -/
def StoreMem.Held (s : StoreMem α) (p : Option ℕ) (cells : List ℕ) (l : List (ℕ × Option α)) :
    Prop :=
  Segment s.next p cells none ∧ cells.map s.entry = l.map some

variable {s : StoreMem α} {p : Option ℕ} {a : ℕ} {cells : List ℕ} {l : List (ℕ × Option α)}
  {link : StoreLink} {key : ℕ} {value : Option α} {fuel : ℕ}

theorem StoreMem.Held.nil (h : s.Held p [] l) : p = none ∧ l = [] := by
  refine ⟨segment_nil_iff.mp h.1, ?_⟩
  simpa using h.2.symm

theorem StoreMem.Held.cons (h : s.Held p (a :: cells) l) :
    ∃ item l', p = some a ∧ s.items[a]? = some item ∧ l = (item.key, item.value) :: l' ∧
      s.Held item.next cells l' := by
  obtain ⟨rfl, r, hnext, hcells⟩ := segment_cons_iff.mp h.1
  obtain ⟨item, hitem, rfl⟩ := Option.map_eq_some_iff.mp hnext
  have hl := h.2
  cases l with
  | nil => cases hl
  | cons e l' =>
    rw [List.map_cons, List.map_cons, List.cons.injEq, StoreMem.entry, hitem] at hl
    cases hl.1
    exact ⟨item, l', rfl, hitem, rfl, hcells, hl.2⟩

theorem storeGetLoop_eq (h : s.Held p cells l) (hfuel : cells.length < fuel) :
    storeGetLoop s key fuel p = some (l.lookup key).join := by
  induction cells generalizing p l fuel with
  | nil =>
    obtain ⟨rfl, rfl⟩ := h.nil
    obtain ⟨fuel, rfl⟩ := Nat.exists_eq_succ_of_ne_zero (Nat.ne_zero_of_lt hfuel)
    rfl
  | cons a cells ih =>
    obtain ⟨item, l', rfl, hitem, rfl, hcells⟩ := h.cons
    obtain ⟨fuel, rfl⟩ := Nat.exists_eq_succ_of_ne_zero (Nat.ne_zero_of_lt hfuel)
    simp only [storeGetLoop, hitem, lookup_cons_eq]
    by_cases hkey : item.key = key
    · rw [if_pos hkey, if_pos hkey.symm]
      rfl
    · rw [if_neg hkey, if_neg (Ne.symm hkey), ih hcells (Nat.lt_of_succ_lt_succ hfuel)]

theorem storeForeachLoop_eq (h : s.Held p cells l) (hfuel : cells.length < fuel) :
    storeForeachLoop s fuel p = some l := by
  induction cells generalizing p l fuel with
  | nil =>
    obtain ⟨rfl, rfl⟩ := h.nil
    obtain ⟨fuel, rfl⟩ := Nat.exists_eq_succ_of_ne_zero (Nat.ne_zero_of_lt hfuel)
    rfl
  | cons a cells ih =>
    obtain ⟨item, l', rfl, hitem, rfl, hcells⟩ := h.cons
    obtain ⟨fuel, rfl⟩ := Nat.exists_eq_succ_of_ne_zero (Nat.ne_zero_of_lt hfuel)
    simp only [storeForeachLoop, hitem, ih hcells (Nat.lt_of_succ_lt_succ hfuel), Option.map_some]

/-- The link that the walk along a chain ends at. -/
def lastLink (link : StoreLink) : List ℕ → StoreLink
  | [] => link
  | a :: cells => lastLink (.next a) cells

theorem lastLink_append (link : StoreLink) (cells : List ℕ) (a : ℕ) :
    lastLink link (cells ++ [a]) = .next a := by
  induction cells generalizing link with
  | nil => rfl
  | cons b cells ih => exact ih (.next b)

/-- If the chain has the key, its value is overwritten. -/
theorem storePutLoop_mem (value : Option α) (h : s.Held p cells l) (hlink : s.read link = some p)
    (hfuel : cells.length < fuel) (hkey : key ∈ l.map Prod.fst) :
    ∃ a item, s.items[a]? = some item ∧ item.key = key ∧
      storePutLoop s key value fuel link =
        some { s with items := s.items.set a { item with value := value } } := by
  induction cells generalizing p l link fuel with
  | nil =>
    obtain ⟨rfl, rfl⟩ := h.nil
    cases hkey
  | cons a cells ih =>
    obtain ⟨item, l', rfl, hitem, rfl, hcells⟩ := h.cons
    obtain ⟨fuel, rfl⟩ := Nat.exists_eq_succ_of_ne_zero (Nat.ne_zero_of_lt hfuel)
    simp only [storePutLoop, hlink, hitem]
    by_cases hitemKey : item.key = key
    · refine ⟨a, item, hitem, hitemKey, ?_⟩
      rw [if_pos hitemKey]
    · rw [if_neg hitemKey]
      rcases List.mem_cons.mp hkey with rfl | hkey
      · exact absurd rfl hitemKey
      · refine ih hcells ?_ (Nat.lt_of_succ_lt_succ hfuel) hkey
        simp only [StoreMem.read, hitem, Option.map_some]

/-- Otherwise a new item is hung on its last link. -/
theorem storePutLoop_not_mem (h : s.Held p cells l) (hlink : s.read link = some p)
    (hfuel : cells.length < fuel) (hkey : key ∉ l.map Prod.fst) :
    storePutLoop s key value fuel link =
      some ((s.alloc key value).write (lastLink link cells) (some s.items.length)) := by
  induction cells generalizing p l link fuel with
  | nil =>
    obtain ⟨rfl, rfl⟩ := h.nil
    obtain ⟨fuel, rfl⟩ := Nat.exists_eq_succ_of_ne_zero (Nat.ne_zero_of_lt hfuel)
    simp only [storePutLoop, hlink, lastLink]
  | cons a cells ih =>
    obtain ⟨item, l', rfl, hitem, rfl, hcells⟩ := h.cons
    obtain ⟨fuel, rfl⟩ := Nat.exists_eq_succ_of_ne_zero (Nat.ne_zero_of_lt hfuel)
    rw [List.map_cons, List.mem_cons, not_or] at hkey
    simp only [storePutLoop, hlink, hitem, lastLink]
    rw [if_neg (Ne.symm hkey.1)]
    refine ih hcells ?_ (Nat.lt_of_succ_lt_succ hfuel) hkey.2
    simp only [StoreMem.read, hitem, Option.map_some]

/-! ## 4. What is written -/

@[simp] theorem StoreMem.alloc_numBuckets : (s.alloc key value).numBuckets = s.numBuckets := rfl

@[simp] theorem StoreMem.alloc_buckets : (s.alloc key value).buckets = s.buckets := rfl

@[simp] theorem StoreMem.write_numBuckets : (s.write link p).numBuckets = s.numBuckets := by
  cases link <;> rfl

theorem StoreMem.next_isSome : (s.next a).isSome ↔ a < s.items.length := by
  rw [StoreMem.next, Option.isSome_map, isSome_getElem?]

theorem StoreMem.next_length : s.next s.items.length = none := by
  rw [StoreMem.next, List.getElem?_eq_none (le_refl _), Option.map_none]

theorem StoreMem.alloc_getElem? (x : ℕ) : (s.alloc key value).items[x]? =
    if x = s.items.length then some ⟨key, value, none⟩ else s.items[x]? := by
  rw [StoreMem.alloc]
  rcases Nat.lt_trichotomy x s.items.length with h | h | h
  · rw [List.getElem?_append_left h, if_neg (Nat.ne_of_lt h)]
  · rw [h, List.getElem?_concat_length, if_pos rfl]
  · rw [if_neg (Nat.ne_of_gt h), List.getElem?_eq_none, List.getElem?_eq_none (Nat.le_of_lt h)]
    rw [List.length_append, List.length_singleton]
    exact h

theorem StoreMem.alloc_next :
    (s.alloc key value).next = Function.update s.next s.items.length (some none) := by
  funext x
  rw [StoreMem.next, StoreMem.alloc_getElem?, Function.update_apply]
  split <;> rfl

theorem StoreMem.alloc_entry :
    (s.alloc key value).entry = Function.update s.entry s.items.length (some (key, value)) := by
  funext x
  rw [StoreMem.entry, StoreMem.alloc_getElem?, Function.update_apply]
  split <;> rfl

/-- Only `next` is written through a link. -/
theorem StoreMem.write_item (s : StoreMem α) (link : StoreLink) (p : Option ℕ) (x : ℕ) :
    ∃ f : StoreItem α → Option ℕ, (s.write link p).items[x]? =
    s.items[x]?.map fun item => { item with next := f item } := by
  cases link with
  | bucket i => exact ⟨StoreItem.next, by rw [StoreMem.write]; exact Option.map_id'.symm⟩
  | next b =>
    refine ⟨fun item => if b = x then p else item.next, ?_⟩
    rw [StoreMem.write, List.getElem?_modify]
    refine Option.map_congr fun item _ => ?_
    split <;> rfl

theorem StoreMem.write_entry : (s.write link p).entry = s.entry := by
  funext x
  obtain ⟨f, hf⟩ := s.write_item link p x
  rw [StoreMem.entry, hf, Option.map_map]
  rfl

theorem StoreMem.write_keys :
    (s.write link p).items.map StoreItem.key = s.items.map StoreItem.key := by
  refine List.ext_getElem? fun x => ?_
  obtain ⟨f, hf⟩ := s.write_item link p x
  rw [List.getElem?_map, List.getElem?_map, hf, Option.map_map]
  rfl

theorem StoreMem.write_next (ha : a < s.items.length) :
    (s.write (.next a) p).next = Function.update s.next a (some p) := by
  funext x
  rw [StoreMem.next, StoreMem.write, List.getElem?_modify, Function.update_apply]
  by_cases h : x = a
  · rw [if_pos h, h, List.getElem?_eq_getElem ha]
    simp
  · rw [if_neg h, StoreMem.next]
    cases s.items[x]? <;> simp [Ne.symm h]

/-! ## 5. The memory represents the association lists -/

/-- The association lists `table` of the buckets are in the memory, that of bucket `i` in `cells i`;
there is no key twice among the items, and no item outside the buckets. -/
structure StoreMem.Represents (s : StoreMem α) (cells : ℕ → List ℕ)
    (table : ℕ → List (ℕ × Option α)) : Prop where
  pos : 0 < s.numBuckets
  held : ∀ i < s.numBuckets, ∃ p, s.buckets[i]? = some p ∧ s.Held p (cells i) (table i)
  placed : ∀ i < s.numBuckets, ∀ e ∈ table i, s.hash e.1 = i
  keys : (s.items.map StoreItem.key).Nodup
  all : ∀ a item, s.items[a]? = some item → a ∈ cells (s.hash item.key)

variable {cellsOf : ℕ → List ℕ} {table : ℕ → List (ℕ × Option α)} {i : ℕ}

theorem StoreMem.hash_lt (h : s.Represents cellsOf table) (key : ℕ) :
    s.hash key < s.numBuckets := Nat.mod_lt _ h.pos

/-- What is read off the cells is read off the list. -/
theorem StoreMem.Held.map_entry {β : Type} (h : s.Held p cells l) (f : ℕ × Option α → β) :
    cells.map (fun a => (s.entry a).map f) = (l.map f).map some :=
  calc cells.map (fun a => (s.entry a).map f)
      = (cells.map s.entry).map (Option.map f) := by rw [List.map_map]; rfl
    _ = (l.map some).map (Option.map f) := by rw [h.2]
    _ = (l.map f).map some := by rw [List.map_map, List.map_map]; rfl

theorem StoreMem.hash_congr {s' : StoreMem α} (h : s'.numBuckets = s.numBuckets) (k : ℕ) :
    s'.hash k = s.hash k := by
  rw [StoreMem.hash, h]
  rfl

/-- A cell of a bucket has an entry of its association list. -/
theorem StoreMem.Held.entry (h : s.Held p cells l) (ha : a ∈ cells) :
    ∃ item, s.items[a]? = some item ∧ (item.key, item.value) ∈ l := by
  have hmem : s.entry a ∈ l.map some := h.2 ▸ List.mem_map_of_mem ha
  obtain ⟨e, he, hentry⟩ := List.mem_map.mp hmem
  obtain ⟨item, hitem, rfl⟩ := Option.map_eq_some_iff.mp hentry.symm
  exact ⟨item, hitem, he⟩

/-- The items of a bucket have keys of this bucket. -/
theorem StoreMem.Represents.hash_cell (h : s.Represents cellsOf table) (hi : i < s.numBuckets)
    (ha : a ∈ cellsOf i) : ∃ item, s.items[a]? = some item ∧ s.hash item.key = i := by
  obtain ⟨p, -, hheld⟩ := h.held i hi
  obtain ⟨item, hitem, hentry⟩ := hheld.entry ha
  exact ⟨item, hitem, h.placed i hi _ hentry⟩

/-- A walk along a bucket is shorter than the steps it is given. -/
theorem StoreMem.Represents.length_lt (h : s.Represents cellsOf table) (hi : i < s.numBuckets) :
    (cellsOf i).length < s.items.length + 1 := by
  obtain ⟨p, -, hheld⟩ := h.held i hi
  have hsub : cellsOf i ⊆ List.range s.items.length := by
    intro a ha
    obtain ⟨item, hitem, -⟩ := hheld.entry ha
    exact List.mem_range.mpr (List.getElem?_eq_some_iff.mp hitem).1
  have hlength := (List.subperm_of_subset hheld.1.nodup hsub).length_le
  rw [List.length_range] at hlength
  exact Nat.lt_succ_of_le hlength

/-- Two items of a key are one. -/
theorem StoreMem.Represents.unique (h : s.Represents cellsOf table) {b : ℕ}
    {item item' : StoreItem α} (ha : s.items[a]? = some item) (hb : s.items[b]? = some item')
    (hkey : item.key = item'.key) : a = b := by
  obtain ⟨hlt, -⟩ := List.getElem?_eq_some_iff.mp ha
  refine (List.getElem?_inj (l := s.items.map StoreItem.key) ?_ h.keys).mp ?_
  · rwa [List.length_map]
  · rw [List.getElem?_map, List.getElem?_map, ha, hb, Option.map_some, Option.map_some, hkey]

theorem StoreMem.Represents.storeGet (h : s.Represents cellsOf table) (key : ℕ) :
    storeGet s key = some ((table (s.hash key)).lookup key).join := by
  obtain ⟨p, hp, hheld⟩ := h.held _ (s.hash_lt h key)
  simp only [CCSim.storeGet, hp]
  exact storeGetLoop_eq hheld (h.length_lt (s.hash_lt h key))

theorem StoreMem.Represents.storeForeachFrom (h : s.Represents cellsOf table) {n : ℕ}
    (hi : i + n = s.numBuckets) :
    storeForeachFrom s n i = some ((List.range' i n).flatMap table) := by
  induction n generalizing i with
  | zero => rfl
  | succ n ih =>
    have hlt : i < s.numBuckets := by omega
    obtain ⟨p, hp, hheld⟩ := h.held i hlt
    simp only [CCSim.storeForeachFrom, hp, storeForeachLoop_eq hheld (h.length_lt hlt)]
    rw [ih (by omega), List.range'_succ, List.flatMap_cons, Option.map_some]

/-! ## 6. A put -/

/-- The association list of a bucket has no key twice. -/
theorem StoreMem.Represents.table_keys (h : s.Represents cellsOf table) (hi : i < s.numBuckets) :
    ((table i).map Prod.fst).Nodup := by
  obtain ⟨p, -, hheld⟩ := h.held i hi
  refine List.Nodup.of_map some ?_
  rw [← hheld.map_entry]
  refine hheld.1.nodup.map_on fun a ha b hb hab => ?_
  obtain ⟨item, hitem, -⟩ := hheld.entry ha
  obtain ⟨item', hitem', -⟩ := hheld.entry hb
  simp only [StoreMem.entry, hitem, hitem', Option.map_some, Option.some.injEq] at hab
  exact h.unique hitem hitem' hab

/-- A put of a key that is there changes the value of its one item. -/
theorem StoreMem.Represents.put_mem (h : s.Represents cellsOf table) (value : Option α)
    (hkey : key ∈ (table (s.hash key)).map Prod.fst) :
    ∃ s', storePut s key value = some s' ∧ s'.numBuckets = s.numBuckets ∧
      s'.Represents cellsOf (Function.update table (s.hash key)
        (bucketPut key value (table (s.hash key)))) := by
  have hlt := s.hash_lt h key
  obtain ⟨p, hp, hheld⟩ := h.held _ hlt
  have hlink : s.read (.bucket (s.hash key)) = some p := hp
  obtain ⟨a, item, hitem, hitemKey, hloop⟩ :=
    storePutLoop_mem value hheld hlink (h.length_lt hlt) hkey
  let s' : StoreMem α := { s with items := s.items.set a { item with value := value } }
  refine ⟨s', hloop, rfl, ?_⟩
  have hget (x : ℕ) : s'.items[x]? =
      s.items[x]?.map fun it => if it.key = key then { it with value := value } else it := by
    rw [List.getElem?_set]
    by_cases hx : a = x
    · subst hx
      rw [if_pos rfl, if_pos (List.getElem?_eq_some_iff.mp hitem).1, hitem, Option.map_some,
        if_pos hitemKey]
    · rw [if_neg hx]
      cases hitem' : s.items[x]? with
      | none => rfl
      | some item' =>
        rw [Option.map_some, if_neg]
        exact fun hkey' => hx (h.unique hitem hitem' (hitemKey.trans hkey'.symm))
  have hnext : s'.next = s.next := by
    funext x
    rw [StoreMem.next, hget, Option.map_map, StoreMem.next]
    refine Option.map_congr fun it _ => ?_
    simp only [Function.comp_apply]
    split <;> rfl
  have hentry : s'.entry = fun x => (s.entry x).map
      fun e => if e.1 = key then (key, value) else e := by
    funext x
    rw [StoreMem.entry, hget, Option.map_map, StoreMem.entry, Option.map_map]
    refine Option.map_congr fun it _ => ?_
    simp only [Function.comp_apply]
    split
    · rename_i hit
      rw [hit]
    · rfl
  have htable : ∀ i < s.numBuckets, Function.update table (s.hash key)
      (bucketPut key value (table (s.hash key))) i =
        (table i).map fun e => if e.1 = key then (key, value) else e := by
    intro i hi
    rw [Function.update_apply]
    split
    · rename_i hib
      rw [hib]
      exact bucketPut_of_mem (h.table_keys hlt) hkey
    · rename_i hib
      symm
      refine (List.map_congr_left fun e he => if_neg ?_).trans (List.map_id _)
      rintro rfl
      exact hib (h.placed i hi e he).symm
  refine ⟨h.pos, fun i hi => ?_, fun i hi e he => ?_, ?_, fun x item' hitem' => ?_⟩
  · obtain ⟨q, hq, hheld⟩ := h.held i hi
    refine ⟨q, hq, hnext ▸ hheld.1, ?_⟩
    rw [htable i hi, hentry]
    exact hheld.map_entry _
  · rw [htable i hi] at he
    obtain ⟨e', he', rfl⟩ := List.mem_map.mp he
    have hplaced := h.placed i hi e' he'
    split
    · rename_i hkey'
      rwa [hkey'] at hplaced
    · exact hplaced
  · have hkeys : s'.items.map StoreItem.key = s.items.map StoreItem.key := by
      refine List.ext_getElem? fun x => ?_
      rw [List.getElem?_map, List.getElem?_map, hget, Option.map_map]
      refine Option.map_congr fun it _ => ?_
      simp only [Function.comp_apply]
      split <;> rfl
    rw [hkeys]
    exact h.keys
  · rw [hget] at hitem'
    obtain ⟨it, hit, rfl⟩ := Option.map_eq_some_iff.mp hitem'
    have hall := h.all x it hit
    split
    · exact hall
    · exact hall

/-- What the last link of a bucket does when the new item is hung on it. -/
theorem StoreMem.Held.hang (h : s.Held p cells l) (hp : s.buckets[i]? = some p) {s' : StoreMem α}
    (hs' : s' = (s.alloc key value).write (lastLink (.bucket i) cells) (some s.items.length)) :
    (∃ p', s'.buckets[i]? = some p' ∧ Segment s'.next p' (cells ++ [s.items.length]) none) ∧
      (∀ j ≠ i, s'.buckets[j]? = s.buckets[j]?) ∧
      ∀ x ∉ cells, x ≠ s.items.length → s'.next x = s.next x := by
  subst hs'
  rcases List.eq_nil_or_concat' cells with rfl | ⟨cells', a, rfl⟩
  · -- the bucket was empty
    obtain ⟨hlt, -⟩ := List.getElem?_eq_some_iff.mp hp
    have hnext : ((s.alloc key value).write (.bucket i) (some s.items.length)).next =
        Function.update s.next s.items.length (some none) := StoreMem.alloc_next
    refine ⟨⟨some s.items.length, List.getElem?_set_self hlt, ?_⟩, fun j hj => ?_,
      fun x _ hx => ?_⟩
    · refine .cons (p := none) ?_ (.nil none)
      rw [lastLink, hnext, Function.update_self]
    · exact List.getElem?_set_ne (Ne.symm hj)
    · rw [lastLink, hnext, Function.update_of_ne hx]
  · have ha : a < (s.alloc key value).items.length := by
      have hsome := h.1.isSome (List.mem_append_right cells' List.mem_cons_self)
      rw [StoreMem.alloc, List.length_append]
      exact Nat.lt_succ_of_lt (StoreMem.next_isSome.mp hsome)
    rw [lastLink_append]
    refine ⟨⟨p, hp, ?_⟩, fun j _ => rfl, fun x hx hx' => ?_⟩
    · rw [StoreMem.write_next ha, StoreMem.alloc_next, List.append_assoc]
      exact h.1.push StoreMem.next_length
    · have hxa : x ≠ a := by
        rintro rfl
        exact hx (List.mem_append_right cells' List.mem_cons_self)
      rw [StoreMem.write_next ha, Function.update_of_ne hxa, StoreMem.alloc_next,
        Function.update_of_ne hx']

/-- A put of another key adds an item to its bucket. -/
theorem StoreMem.Represents.put_not_mem (h : s.Represents cellsOf table) (value : Option α)
    (hkey : key ∉ (table (s.hash key)).map Prod.fst) :
    ∃ s', storePut s key value = some s' ∧ s'.numBuckets = s.numBuckets ∧
      s'.Represents
        (Function.update cellsOf (s.hash key) (cellsOf (s.hash key) ++ [s.items.length]))
        (Function.update table (s.hash key) (bucketPut key value (table (s.hash key)))) := by
  have hlt := s.hash_lt h key
  obtain ⟨p, hp, hheld⟩ := h.held _ hlt
  obtain ⟨s', hs'⟩ : ∃ s', s' = (s.alloc key value).write
    (lastLink (.bucket (s.hash key)) (cellsOf (s.hash key))) (some s.items.length) := ⟨_, rfl⟩
  obtain ⟨⟨p', hp', hchain⟩, hbuckets, hnext⟩ := hheld.hang hp hs'
  have hnum : s'.numBuckets = s.numBuckets := by rw [hs', StoreMem.write_numBuckets]; rfl
  have hhash := StoreMem.hash_congr hnum
  have hentry : s'.entry = Function.update s.entry s.items.length (some (key, value)) := by
    rw [hs', StoreMem.write_entry, StoreMem.alloc_entry]
  -- the cells in use are older than the new one
  have hold : ∀ i < s.numBuckets, ∀ x ∈ cellsOf i, x ≠ s.items.length := by
    intro i hi x hx
    obtain ⟨item, hitem, -⟩ := h.hash_cell hi hx
    exact Nat.ne_of_lt (List.getElem?_eq_some_iff.mp hitem).1
  have hentries : ∀ i < s.numBuckets, (cellsOf i).map s'.entry = (table i).map some := by
    intro i hi
    obtain ⟨q, -, hheld'⟩ := h.held i hi
    rw [← hheld'.2, hentry]
    exact List.map_congr_left fun x hx => Function.update_of_ne (hold i hi x hx) _ _
  refine ⟨s', ?_, hnum, hnum ▸ h.pos, fun i hi => ?_, fun i hi e he => ?_, ?_,
    fun x item hitem => ?_⟩
  · rw [hs']
    have hlink : s.read (.bucket (s.hash key)) = some p := hp
    exact storePutLoop_not_mem hheld hlink (h.length_lt hlt) hkey
  · rw [hnum] at hi
    by_cases hib : i = s.hash key
    · subst hib
      rw [Function.update_self, Function.update_self, bucketPut_of_not_mem hkey]
      refine ⟨p', hp', hchain, ?_⟩
      rw [List.map_append, List.map_append, hentries _ hi, hentry]
      simp
    · rw [Function.update_of_ne hib, Function.update_of_ne hib, hbuckets i hib]
      obtain ⟨q, hq, hheld'⟩ := h.held i hi
      refine ⟨q, hq, hheld'.1.congr fun x hx => hnext x (fun hxb => hib ?_) (hold i hi x hx),
        hentries i hi⟩
      -- a cell of both buckets would have one key only
      obtain ⟨item, hitem, hhere⟩ := h.hash_cell hi hx
      obtain ⟨item', hitem', hthere⟩ := h.hash_cell hlt hxb
      rw [hitem] at hitem'
      cases hitem'
      exact hhere.symm.trans hthere
  · rw [hnum] at hi
    rw [hhash]
    by_cases hib : i = s.hash key
    · subst hib
      rw [Function.update_self, bucketPut_of_not_mem hkey] at he
      rcases List.mem_append.mp he with he | he
      · exact h.placed _ hi e he
      · rw [List.mem_singleton.mp he]
    · rw [Function.update_of_ne hib] at he
      exact h.placed i hi e he
  · rw [hs', StoreMem.write_keys, StoreMem.alloc, List.map_append, List.map_cons, List.map_nil]
    refine List.nodup_append.mpr ⟨h.keys, List.nodup_singleton _, ?_⟩
    rintro k hk _ hk' rfl
    rw [List.mem_singleton.mp hk'] at hk
    -- an item of the key would be in its bucket
    obtain ⟨item, hitem, rfl⟩ := List.mem_map.mp hk
    obtain ⟨x, hx⟩ := List.mem_iff_getElem?.mp hitem
    obtain ⟨item', hitem', hmem⟩ := hheld.entry (h.all x item hx)
    rw [hx] at hitem'
    cases hitem'
    exact hkey (List.mem_map_of_mem hmem)
  · rw [hhash]
    obtain ⟨f, hf⟩ := (s.alloc key value).write_item
      (lastLink (.bucket (s.hash key)) (cellsOf (s.hash key))) (some s.items.length) x
    rw [hs', hf] at hitem
    obtain ⟨it, hit, rfl⟩ := Option.map_eq_some_iff.mp hitem
    rw [StoreMem.alloc_getElem?] at hit
    split at hit
    · rename_i hx
      cases hit
      rw [Function.update_self, hx]
      exact List.mem_append_right _ List.mem_cons_self
    · have hall := h.all x it hit
      by_cases hib : s.hash it.key = s.hash key
      · rw [hib] at hall
        dsimp only
        rw [hib, Function.update_self]
        exact List.mem_append_left _ hall
      · dsimp only
        rw [Function.update_of_ne hib]
        exact hall

/-- **One put**: the association list of the bucket of the key is put into, all others stay. -/
theorem StoreMem.Represents.put (h : s.Represents cellsOf table) (key : ℕ) (value : Option α) :
    ∃ s' cellsOf', storePut s key value = some s' ∧ s'.numBuckets = s.numBuckets ∧
      s'.Represents cellsOf' (Function.update table (s.hash key)
        (bucketPut key value (table (s.hash key)))) := by
  by_cases hkey : key ∈ (table (s.hash key)).map Prod.fst
  · obtain ⟨s', hput, hnum, hs'⟩ := h.put_mem value hkey
    exact ⟨s', _, hput, hnum, hs'⟩
  · obtain ⟨s', hput, hnum, hs'⟩ := h.put_not_mem value hkey
    exact ⟨s', _, hput, hnum, hs'⟩

/-! ## 7. All puts -/

/-- The store after these puts. -/
def storeRun : StoreMem α → List (ℕ × Option α) → Option (StoreMem α)
  | s, [] => some s
  | s, put :: puts =>
    match storePut s put.1 put.2 with
    | none => none
    | some s' => storeRun s' puts

/-- What was put last under a key, if anything was. -/
def lastPut (puts : List (ℕ × Option α)) (key : ℕ) : Option (Option α) := puts.reverse.lookup key

theorem storeNew_represents : (storeNew : StoreMem α).Represents (fun _ => []) fun _ => [] where
  pos := Nat.zero_lt_succ _
  held i hi := ⟨none, List.getElem?_replicate_of_lt hi, .nil none, rfl⟩
  placed i _ e he := by cases he
  keys := List.nodup_nil
  all a item h := by cases h

/-- What the association lists say after a put. -/
theorem table_lookup (s : StoreMem α) (table : ℕ → List (ℕ × Option α)) (key : ℕ)
    (value : Option α) (k : ℕ) :
    ((Function.update table (s.hash key) (bucketPut key value (table (s.hash key))))
      (s.hash k)).lookup k = if k = key then some value else (table (s.hash k)).lookup k := by
  by_cases hk : s.hash k = s.hash key
  · rw [hk, Function.update_self, bucketPut_lookup]
  · rw [Function.update_of_ne hk, if_neg]
    rintro rfl
    exact hk rfl

/-- The run lemma, from any store on. -/
theorem storeRun_represents (h : s.Represents cellsOf table) (puts : List (ℕ × Option α)) :
    ∃ s' cellsOf' table', storeRun s puts = some s' ∧ s'.Represents cellsOf' table' ∧
      s'.numBuckets = s.numBuckets ∧
      ∀ k, (table' (s'.hash k)).lookup k = (lastPut puts k).or ((table (s.hash k)).lookup k) := by
  induction puts generalizing s cellsOf table with
  | nil => exact ⟨s, cellsOf, table, rfl, h, rfl, fun k => rfl⟩
  | cons put puts ih =>
    obtain ⟨key, value⟩ := put
    obtain ⟨s₁, cells₁, hput, hnum, h₁⟩ := h.put key value
    obtain ⟨s', cellsOf', table', hrun, h', hnum', hlookup⟩ := ih h₁
    have hhash := StoreMem.hash_congr hnum
    refine ⟨s', cellsOf', table', ?_, h', hnum'.trans hnum, fun k => ?_⟩
    · simp only [storeRun, hput]
      exact hrun
    · rw [hlookup, hhash, table_lookup, lastPut, lastPut, List.reverse_cons, List.lookup_append,
        Option.or_assoc, lookup_cons_eq]
      by_cases hk : k = key
      · rw [if_pos hk, if_pos hk]
        rfl
      · rw [if_neg hk, if_neg hk]
        rfl

/-- What `store_foreach_item` visits. -/
theorem StoreMem.Represents.visited (h : s.Represents cellsOf table) :
    ∃ visited, storeForeachItem s = some visited ∧ (visited.map Prod.fst).Nodup ∧
      ∀ k v, (k, v) ∈ visited ↔ (table (s.hash k)).lookup k = some v := by
  refine ⟨_, h.storeForeachFrom (Nat.zero_add _), ?_, fun k v => ?_⟩
  · rw [List.map_flatMap]
    refine List.nodup_flatMap.mpr ⟨fun i hi => ?_, ?_⟩
    · exact h.table_keys (by simpa using hi)
    · have hrange : (List.range' 0 s.numBuckets).Nodup := List.nodup_range'
      refine hrange.imp_of_mem fun {i j} hi hj hij => ?_
      -- a key of two buckets would have two hashes
      intro k hki hkj
      obtain ⟨e, he, rfl⟩ := List.mem_map.mp hki
      obtain ⟨e', he', heq⟩ := List.mem_map.mp hkj
      have hplaced := h.placed i (by simpa using hi) e he
      have hplaced' := h.placed j (by simpa using hj) e' he'
      rw [heq] at hplaced'
      exact hij (hplaced.symm.trans hplaced')
  · rw [← mem_iff_lookup (h.table_keys (s.hash_lt h k)), List.mem_flatMap]
    constructor
    · rintro ⟨i, hi, hmem⟩
      rwa [h.placed i (by simpa using hi) _ hmem]
    · intro hmem
      exact ⟨s.hash k, by simpa using s.hash_lt h k, hmem⟩

/-- **The store is a map.**  After any puts: no two items have the same key, each bucket is a chain
of items that ends, of just the items with this hash; `store_get` returns what was put last under
the key; one more put changes this for its key only; and `store_foreach_item` visits every key ever
put once, with its value.  No walk runs out of steps and nothing outside the memory is read. -/
theorem hash_store_is_map (puts : List (ℕ × Option α)) :
    ∃ s : StoreMem α, storeRun storeNew puts = some s ∧
      (s.items.map StoreItem.key).Nodup ∧
      (∃ cells : ℕ → List ℕ,
        (∀ i < s.numBuckets, ∃ p, s.buckets[i]? = some p ∧ Segment s.next p (cells i) none ∧
          ∀ a ∈ cells i, ∃ item, s.items[a]? = some item ∧ s.hash item.key = i) ∧
        ∀ a item, s.items[a]? = some item → a ∈ cells (s.hash item.key)) ∧
      (∀ k, storeGet s k = some (lastPut puts k).join) ∧
      (∀ key value, ∃ s', storePut s key value = some s' ∧ storeGet s' key = some value ∧
        ∀ k ≠ key, storeGet s' k = storeGet s k) ∧
      ∃ visited, storeForeachItem s = some visited ∧ (visited.map Prod.fst).Nodup ∧
        ∀ k v, (k, v) ∈ visited ↔ lastPut puts k = some v := by
  obtain ⟨s, cells, table, hrun, h, -, hlookup⟩ := storeRun_represents storeNew_represents puts
  have hlast (k : ℕ) : (table (s.hash k)).lookup k = lastPut puts k := by
    rw [hlookup, List.lookup_nil, Option.or_none]
  refine ⟨s, hrun, h.keys, ⟨cells, fun i hi => ?_, h.all⟩, fun k => ?_, fun key value => ?_, ?_⟩
  · obtain ⟨p, hp, hheld⟩ := h.held i hi
    exact ⟨p, hp, hheld.1, fun a ha => h.hash_cell hi ha⟩
  · rw [h.storeGet, hlast]
  · obtain ⟨s', cells', hput, hnum, h'⟩ := h.put key value
    have hget (k : ℕ) : storeGet s' k =
        some (if k = key then some value else (table (s.hash k)).lookup k).join := by
      rw [h'.storeGet, ← table_lookup, StoreMem.hash_congr hnum]
    refine ⟨s', hput, ?_, fun k hk => ?_⟩
    · rw [hget, if_pos rfl]
      rfl
    · rw [hget, if_neg hk, h.storeGet]
  · obtain ⟨visited, hforeach, hkeys, hmem⟩ := h.visited
    refine ⟨visited, hforeach, hkeys, fun k v => ?_⟩
    rw [hmem, hlast]

/-! ## 8. The store of a server -/

/-- The value of a key is the pointer to its latest version, the chain of `Store`. -/
def StoreMem.Holds {R D : Type} (s : StoreMem (List (Item R D))) (store : Store R D) : Prop :=
  ∀ key, storeGet s key = some ((store key).head?.map fun _ => store key)

/-- What `putValue` does to the chains, `store_put` does to the memory. -/
theorem StoreMem.Holds.putValue {R D : Type} {s : StoreMem (List (Item R D))}
    {table : ℕ → List (ℕ × Option (List (Item R D)))} {store store' : Store R D} {key : ℕ}
    {item : Item R D} (h : s.Holds store) (hs : s.Represents cellsOf table)
    (hput : putValue store key item = some store') :
    ∃ s', storePut s key (some (item :: store key)) = some s' ∧ s'.Holds store' := by
  obtain ⟨s', cellsOf', hs', hnum, h'⟩ := hs.put key (some (item :: store key))
  obtain ⟨rfl, -⟩ := putValue_some hput
  refine ⟨s', hs', fun k => ?_⟩
  rw [h'.storeGet, StoreMem.hash_congr hnum, table_lookup]
  by_cases hk : k = key
  · subst hk
    rw [if_pos rfl, Function.update_self]
    rfl
  · rw [if_neg hk, Function.update_of_ne hk, ← h k, hs.storeGet]

end CCSim
