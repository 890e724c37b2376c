/-
# The lists of the CPU and the update queues in memory

`cpu/list.c` links the items that wait at a CPU, and `queue.c` the updates that wait for a replica.
Both keep a pointer to the first and to the last cell.  An item of a CPU list belongs to the caller:
it is linked into a list, unlinked, and linked into another one.  `queue_t` allocates a cell for every
element and frees it when the element is taken out.

`CpuListMem` and `QueueMem` are the lists and the cells in memory; following a pointer to a cell that
does not exist is `none`.  The data types are plain deques (`cpuDeques`) and plain queues (`queues`),
and the code refines them: whatever is done, in whatever order and to whichever lists, goes through
and returns what the data types say (`linked_lists`).  The only thing that gets lost is the length of
a list from `2 ^ 32` on, because `size` is an `unsigned int` (`cpu_list_size_wraps`).

The model of the CPU (`Cpu.lean`) has lists for these; `CpuListMem.Represents.wake` ties the two
together.  `malloc` does not fail here.
-/
import CCSim.Cluster
import CCSim.Cpu
import CCSim.Lib.DataType
import CCSim.Lib.Deques

namespace CCSim

variable {ι I E α : Type} [DecidableEq ι]

/-- What a call returns: nothing, a pointer, or a truth value. -/
inductive ListResult (P : Type)
  | done
  | pointer (p : Option P)
  | flag (b : Bool)
  deriving DecidableEq

/-! ## 1. The lists of the CPU -/

/-- `cpu_list_item_t`.  The content is the event type and the data. -/
structure CpuListNode (I : Type) where
  content : I
  next : Option ℕ

/-- `cpu_list_t` -/
structure CpuList extends Ends ℕ where
  size : ℕ

/-- The lists, and the items that have been allocated.  An address is a number, no address is
`NULL`. -/
structure CpuListMem (ι I : Type) where
  lists : ι → CpuList
  items : ℕ → Option (CpuListNode I)

/-- The calls, with the address that `malloc` returns. -/
inductive CpuListOp (ι I : Type)
  | itemNew (a : ℕ) (content : I)
  | itemFree (a : ℕ)
  | empty (i : ι)
  | push (i : ι) (a : ℕ)
  | shift (i : ι)
  | unshift (i : ι) (a : ℕ)

namespace CpuListMem

/-- `cpu_list_init`, of all lists. -/
def init : CpuListMem ι I := ⟨fun _ => ⟨⟨none, none⟩, 0⟩, fun _ => none⟩

variable (m : CpuListMem ι I)

/-- `item->next`, for all items. -/
def next : ℕ → Option (Option ℕ) := Option.map CpuListNode.next ∘ m.items

/-- The contents of all items. -/
def content : ℕ → Option I := Option.map CpuListNode.content ∘ m.items

def setItem (a : ℕ) (item : Option (CpuListNode I)) : CpuListMem ι I :=
  { m with items := Function.update m.items a item }

def setList (i : ι) (list : CpuList) : CpuListMem ι I :=
  { m with lists := Function.update m.lists i list }

/-- `item->next = p` -/
def setNext (a : ℕ) (p : Option ℕ) : Option (CpuListMem ι I) :=
  (m.items a).map fun item => m.setItem a (some { item with next := p })

/-- `cpu_list_item_new` -/
def itemNew (a : ℕ) (content : I) : CpuListMem ι I := m.setItem a (some ⟨content, none⟩)

/-- `cpu_list_item_free` -/
def itemFree (a : ℕ) : Option (CpuListMem ι I) := (m.items a).map fun _ => m.setItem a none

/-- `cpu_list_empty` -/
def empty (i : ι) : Bool := (m.lists i).head.isNone

/-- `cpu_list_push` -/
def push (i : ι) (item : ℕ) : Option (CpuListMem ι I) :=
  let list := m.lists i
  let size := (list.size + 1) % uintSize
  match list.tail with
  | none => some (m.setList i ⟨⟨some item, some item⟩, size⟩)
  | some last =>
    (m.setNext last (some item)).map fun m => m.setList i ⟨⟨list.head, some item⟩, size⟩

/-- `cpu_list_shift` -/
def shift (i : ι) : Option (CpuListMem ι I × Option ℕ) :=
  let list := m.lists i
  match list.head with
  | none => some (m, none)
  | some item =>
    match m.next item with
    | none => none
    | some next =>
      let tail := if list.tail = some item then none else list.tail
      let size := (list.size + uintSize - 1) % uintSize
      ((m.setList i ⟨⟨next, tail⟩, size⟩).setNext item none).map fun m => (m, some item)

/-- `cpu_list_unshift` -/
def unshift (i : ι) (item : ℕ) : Option (CpuListMem ι I) :=
  let list := m.lists i
  let size := (list.size + 1) % uintSize
  match list.head with
  | none => (m.setNext item none).map fun m => m.setList i ⟨⟨some item, some item⟩, size⟩
  | some head =>
    (m.setNext item (some head)).map fun m => m.setList i ⟨⟨some item, list.tail⟩, size⟩

def step : CpuListOp ι I → Option (CpuListMem ι I × ListResult ℕ)
  | .itemNew a content => some (m.itemNew a content, .done)
  | .itemFree a => (m.itemFree a).map fun m => (m, .done)
  | .empty i => some (m, .flag (m.empty i))
  | .push i a => (m.push i a).map fun m => (m, .done)
  | .shift i => (m.shift i).map fun x => (x.1, .pointer x.2)
  | .unshift i a => (m.unshift i a).map fun m => (m, .done)

end CpuListMem

/-- `cpu/list.c` -/
def cpuLists (ι I : Type) [DecidableEq ι] :
    Implementation (CpuListOp ι I) (ListResult ℕ) (CpuListMem ι I) where
  init := .init
  step := CpuListMem.step

/-! ## 2. Deques -/

/-- Deques of items, and the contents of the items there are. -/
structure CpuDeques (ι I : Type) where
  items : ι → List ℕ
  content : ℕ → Option I

/-- An item that is in no deque. -/
def CpuDeques.Detached (d : CpuDeques ι I) (a : ℕ) : Prop :=
  (d.content a).isSome ∧ ∀ i, a ∉ d.items i

omit [DecidableEq ι] in
theorem CpuDeques.Detached.of_others {d : CpuDeques ι I} {a : ℕ} {i : ι} (ha : (d.content a).isSome)
    (hother : ∀ j ≠ i, a ∉ d.items j) (hi : a ∉ d.items i) : d.Detached a := by
  refine ⟨ha, fun j => ?_⟩
  by_cases hj : j = i
  · rw [hj]
    exact hi
  · exact hother j hj

/-- The contents of the deques. -/
def CpuDeques.contents (d : CpuDeques ι I) : ι → List I := List.filterMap d.content ∘ d.items

/-- Plain deques.  Only detached items are linked into one, or freed, and `malloc` returns an address
that is not in use. -/
def cpuDeques (ι I : Type) [DecidableEq ι] :
    DataType (CpuListOp ι I) (ListResult ℕ) (CpuDeques ι I) where
  init := ⟨fun _ => [], fun _ => none⟩
  step d
    | .itemNew a content => ({ d with content := Function.update d.content a (some content) }, .done)
    | .itemFree a => ({ d with content := Function.update d.content a none }, .done)
    | .empty i => (d, .flag (d.items i).isEmpty)
    | .push i a => ({ d with items := Function.update d.items i (d.items i ++ [a]) }, .done)
    | .shift i => ({ d with items := Function.update d.items i (d.items i).tail },
        .pointer (d.items i).head?)
    | .unshift i a => ({ d with items := Function.update d.items i (a :: d.items i) }, .done)
  Allows d
    | .itemNew a _ => d.content a = none
    | .itemFree a | .push _ a | .unshift _ a => d.Detached a
    | .empty _ | .shift _ => True

/-! ## 3. The lists are deques -/

namespace CpuListMem

/-- The memory holds the deques. -/
structure Represents (m : CpuListMem ι I) (d : CpuDeques ι I) : Prop where
  threaded : Threaded m.next (CpuList.toEnds ∘ m.lists) d.items
  size (i : ι) : (m.lists i).size = (d.items i).length % uintSize
  content : m.content = d.content
  /-- Without this `cpu_list_push` would not end the list. -/
  detached (a : ℕ) (ha : d.Detached a) : m.next a = some none

section Memory

variable (m : CpuListMem ι I) {a : ℕ}

theorem toEnds_setList (i : ι) (list : CpuList) : CpuList.toEnds ∘ (m.setList i list).lists =
    Function.update (CpuList.toEnds ∘ m.lists) i list.toEnds :=
  Function.comp_update _ _ _ _

omit [DecidableEq ι]

theorem next_setItem (a : ℕ) (item : Option (CpuListNode I)) :
    (m.setItem a item).next = Function.update m.next a (item.map CpuListNode.next) :=
  Function.comp_update _ _ _ _

theorem content_setItem (a : ℕ) (item : Option (CpuListNode I)) :
    (m.setItem a item).content = Function.update m.content a (item.map CpuListNode.content) :=
  Function.comp_update _ _ _ _

variable {m}

theorem setNext_setList [DecidableEq ι] (i : ι) (list : CpuList) (a : ℕ) (p : Option ℕ) :
    (m.setList i list).setNext a p = (m.setNext a p).map fun m => m.setList i list := by
  rw [setNext, setNext, Option.map_map]
  rfl

theorem exists_item (ha : (m.content a).isSome) : ∃ item, m.items a = some item := by
  rwa [content, Function.comp_apply, Option.isSome_map, Option.isSome_iff_exists] at ha

/-- Writing to the `next` of an item that exists. -/
theorem exists_setNext (p : Option ℕ) (ha : (m.content a).isSome) :
    ∃ m', m.setNext a p = some m' ∧ m'.next = Function.update m.next a (some p) ∧
      m'.lists = m.lists ∧ m'.content = m.content := by
  obtain ⟨item, hitem⟩ := exists_item ha
  have hcontent : some item.content = m.content a := by
    rw [content, Function.comp_apply, hitem, Option.map_some]
  refine ⟨m.setItem a (some { item with next := p }), by rw [setNext, hitem, Option.map_some],
    next_setItem m a _, rfl, ?_⟩
  rw [content_setItem, Option.map_some, hcontent, Function.update_eq_self]

end Memory

variable {m m' : CpuListMem ι I} {d : CpuDeques ι I} {a : ℕ} {i : ι}

theorem init_represents : (init : CpuListMem ι I).Represents (cpuDeques ι I).init where
  threaded := ⟨fun _ => .nil none, fun _ => rfl, fun _ _ _ h => by cases h⟩
  size _ := rfl
  content := rfl
  detached _ h := by cases h.1

namespace Represents

omit [DecidableEq ι] in
theorem empty (h : m.Represents d) (i : ι) : m.empty i = (d.items i).isEmpty := by
  have hhead : (m.lists i).head = (d.items i).head? := h.threaded.head i
  rw [CpuListMem.empty, hhead]
  cases d.items i <;> rfl

omit [DecidableEq ι] in
/-- The items of a list exist. -/
theorem isSome_content (h : m.Represents d) (ha : a ∈ d.items i) : (m.content a).isSome := by
  have hsome := (h.threaded.segment i).isSome ha
  rw [next, Function.comp_apply, Option.isSome_map] at hsome
  rwa [CpuListMem.content, Function.comp_apply, Option.isSome_map]

theorem itemNew (h : m.Represents d) (ha : d.content a = none) (content : I) :
    (m.itemNew a content).Represents ((cpuDeques ι I).step d (.itemNew a content)).1 := by
  -- the address is not in use, so no list has it
  have hnew : ∀ j, ∀ b ∈ d.items j, b ≠ a := by
    rintro j b hb rfl
    have hsome := h.isSome_content hb
    rw [h.content, ha] at hsome
    cases hsome
  refine ⟨h.threaded.congr fun j b hb => ?_, h.size, ?_, fun b hb => ?_⟩
  · rw [CpuListMem.itemNew, next_setItem, Function.update_of_ne (hnew j b hb)]
  · rw [CpuListMem.itemNew, content_setItem, h.content]
    rfl
  · rw [CpuListMem.itemNew, next_setItem]
    by_cases hba : b = a
    · rw [hba, Function.update_self, Option.map_some]
    · have hcontent : (Function.update d.content a (some content) b).isSome := hb.1
      rw [Function.update_of_ne hba] at hcontent ⊢
      exact h.detached b ⟨hcontent, hb.2⟩

theorem itemFree (h : m.Represents d) (ha : d.Detached a) : ∃ m', m.itemFree a = some m' ∧
    m'.Represents ((cpuDeques ι I).step d (.itemFree a)).1 := by
  obtain ⟨item, hitem⟩ := exists_item (h.content ▸ ha.1)
  refine ⟨m.setItem a none, by rw [CpuListMem.itemFree, hitem, Option.map_some],
    h.threaded.congr fun j b hb => ?_, h.size, ?_, fun b hb => ?_⟩
  · have hba : b ≠ a := fun hba => ha.2 j (hba ▸ hb)
    rw [next_setItem, Function.update_of_ne hba]
  · rw [content_setItem, h.content]
    rfl
  · have hcontent : (Function.update d.content a none b).isSome := hb.1
    by_cases hba : b = a
    · rw [hba, Function.update_self] at hcontent
      cases hcontent
    · rw [Function.update_of_ne hba] at hcontent
      rw [next_setItem, Function.update_of_ne hba]
      exact h.detached b ⟨hcontent, hb.2⟩

/-- A list is replaced.  Items that are in no list now were in none before, or have no next one. -/
theorem replace {list : CpuList} {l : List ℕ} (h : m.Represents d)
    (hthreaded : Threaded m'.next (Function.update (CpuList.toEnds ∘ m.lists) i list.toEnds)
      (Function.update d.items i l)) (hlists : m'.lists = m.lists) (hcontent : m'.content = m.content)
    (hsize : list.size = l.length % uintSize)
    (hnext : ∀ a, (d.content a).isSome → (∀ j ≠ i, a ∉ d.items j) → a ∉ l → m'.next a = some none) :
    (m'.setList i list).Represents ⟨Function.update d.items i l, d.content⟩ := by
  refine ⟨?_, fun j => ?_, hcontent.trans h.content, fun a ha => hnext a ha.1 (fun j hj => ?_) ?_⟩
  · rw [toEnds_setList, hlists]
    exact hthreaded
  · show (Function.update m'.lists i list j).size = (Function.update d.items i l j).length % uintSize
    by_cases hj : j = i
    · subst hj
      rw [Function.update_self, Function.update_self, hsize]
    · rw [Function.update_of_ne hj, Function.update_of_ne hj, hlists, h.size]
  · have hdetached : a ∉ Function.update d.items i l j := ha.2 j
    rwa [Function.update_of_ne hj] at hdetached
  · have hdetached : a ∉ Function.update d.items i l i := ha.2 i
    rwa [Function.update_self] at hdetached

theorem push (h : m.Represents d) (ha : d.Detached a) (i : ι) : ∃ m', m.push i a = some m' ∧
    m'.Represents ((cpuDeques ι I).step d (.push i a)).1 := by
  have hsize : ((m.lists i).size + 1) % uintSize = (d.items i ++ [a]).length % uintSize := by
    rw [h.size, Nat.mod_add_mod, List.length_append, List.length_singleton]
  have htail := h.threaded.tail i
  unfold CpuListMem.push
  dsimp only
  split
  · rename_i hnone
    have hempty : d.items i = [] := (h.threaded.tail_none i).mp hnone
    refine ⟨_, rfl, h.replace ?_ rfl rfl hsize fun b hb hother hb' =>
      h.detached b (.of_others hb hother ?_)⟩
    · rw [hempty]
      exact h.threaded.first (h.detached a ha) ha.2 i
    · rw [hempty]
      exact List.not_mem_nil
  · rename_i last hlast
    have hmem : last ∈ d.items i := List.mem_of_getLast? (htail.symm.trans hlast)
    obtain ⟨m', hset, hnext, hlists, hcontent⟩ :=
      exists_setNext (some a) (h.isSome_content hmem)
    refine ⟨_, by rw [hset, Option.map_some], h.replace ?_ hlists hcontent hsize
      fun b hb hother hb' => ?_⟩
    · rw [hnext]
      exact h.threaded.hang (h.detached a ha) ha.2 hlast
    · rw [List.mem_append, not_or] at hb'
      have hbl : b ≠ last := fun hbl => hb'.1 (hbl ▸ hmem)
      rw [hnext, Function.update_of_ne hbl]
      exact h.detached b (.of_others hb hother hb'.1)

theorem shift (h : m.Represents d) (i : ι) :
    ∃ m', m.shift i = some (m', (d.items i).head?) ∧
      m'.Represents ((cpuDeques ι I).step d (.shift i)).1 := by
  have hhead : (m.lists i).head = (d.items i).head? := h.threaded.head i
  cases hi : d.items i with
  | nil =>
    refine ⟨m, ?_, ?_⟩
    · rw [hi] at hhead
      rw [CpuListMem.shift]
      simp only [hhead, List.head?_nil]
    · have hsame : Function.update d.items i (d.items i).tail = d.items := by
        rw [hi, List.tail_nil, ← hi, Function.update_eq_self]
      show m.Represents ⟨Function.update d.items i (d.items i).tail, d.content⟩
      rwa [hsame]
  | cons a l =>
    have hmem : a ∈ d.items i := hi ▸ List.mem_cons_self
    obtain ⟨m', hset, hnext, hlists, hcontent⟩ := exists_setNext none (h.isSome_content hmem)
    let list : CpuList := ⟨⟨l.head?, if l = [] then none else (m.lists i).tail⟩,
      ((m.lists i).size + uintSize - 1) % uintSize⟩
    have hrep : (m'.setList i list).Represents ⟨Function.update d.items i l, d.content⟩ := by
      refine h.replace ?_ hlists hcontent ?_ fun b hb hother hb' => ?_
      · rw [hnext]
        exact h.threaded.unlink hi fun b hb => Function.update_of_ne hb _ _
      · show ((m.lists i).size + uintSize - 1) % uintSize = l.length % uintSize
        rw [h.size, hi, List.length_cons, uintSize]
        omega
      · rw [hnext]
        by_cases hba : b = a
        · rw [hba, Function.update_self]
        · rw [Function.update_of_ne hba]
          refine h.detached b (.of_others hb hother ?_)
          rw [hi, List.mem_cons, not_or]
          exact ⟨hba, hb'⟩
    refine ⟨m'.setList i list, ?_, ?_⟩
    · have htail : (if (m.lists i).tail = some a then none else (m.lists i).tail) =
          if l = [] then none else (m.lists i).tail :=
        if_congr (h.threaded.tail_eq_some_iff hi) rfl rfl
      rw [hi] at hhead
      rw [CpuListMem.shift]
      simp only [hhead, List.head?_cons, h.threaded.next_head hi, htail, setNext_setList, hset,
        Option.map_some]
      rfl
    · show (m'.setList i list).Represents ⟨Function.update d.items i (d.items i).tail, d.content⟩
      rwa [hi, List.tail_cons]

theorem unshift (h : m.Represents d) (ha : d.Detached a) (i : ι) : ∃ m', m.unshift i a = some m' ∧
    m'.Represents ((cpuDeques ι I).step d (.unshift i a)).1 := by
  have hhead := h.threaded.head_none i
  have hsome : (m.content a).isSome := h.content ▸ ha.1
  have hsize : ((m.lists i).size + 1) % uintSize = (a :: d.items i).length % uintSize := by
    rw [h.size, Nat.mod_add_mod, List.length_cons]
  obtain ⟨m', hset, hnext, hlists, hcontent⟩ := exists_setNext (m.lists i).head hsome
  refine ⟨m'.setList i ⟨⟨some a, if d.items i = [] then some a else (m.lists i).tail⟩,
    ((m.lists i).size + 1) % uintSize⟩, ?_, h.replace ?_ hlists hcontent hsize
      fun b hb hother hb' => ?_⟩
  · unfold CpuListMem.unshift
    dsimp only
    split
    · rename_i hnone
      rw [hnone] at hset
      rw [hset, if_pos (hhead.mp hnone)]
      rfl
    · rename_i first hfirst
      rw [hfirst] at hset
      have hne : d.items i ≠ [] := fun hempty => by
        cases hfirst.symm.trans (hhead.mpr hempty)
      rw [hset, if_neg hne]
      rfl
  · rw [hnext]
    exact h.threaded.prepend ha.2 i
  · rw [List.mem_cons, not_or] at hb'
    rw [hnext, Function.update_of_ne hb'.1]
    exact h.detached b (.of_others hb hother hb'.2)

end Represents

end CpuListMem

/-- **The lists of the CPU are deques.** -/
theorem cpuLists_refines : (cpuLists ι I).Refines (cpuDeques ι I) CpuListMem.Represents where
  init := CpuListMem.init_represents
  step m d op h hop := by
    cases op with
    | itemNew a content => exact ⟨_, rfl, h.itemNew hop content⟩
    | itemFree a =>
      obtain ⟨m', hm', h'⟩ := h.itemFree hop
      exact ⟨m', congrArg (Option.map _) hm', h'⟩
    | empty i => exact ⟨m, congrArg (fun b => some (m, ListResult.flag b)) (h.empty i), h⟩
    | push i a =>
      obtain ⟨m', hm', h'⟩ := h.push hop i
      exact ⟨m', congrArg (Option.map _) hm', h'⟩
    | shift i =>
      obtain ⟨m', hm', h'⟩ := h.shift i
      exact ⟨m', congrArg (Option.map _) hm', h'⟩
    | unshift i a =>
      obtain ⟨m', hm', h'⟩ := h.unshift hop i
      exact ⟨m', congrArg (Option.map _) hm', h'⟩

/-! ### What the model of the CPU does with lists -/

/-- `on_lock_unlock` and its siblings: the first item that waits for a lock goes to the front of the
queue of the CPU. -/
def CpuListMem.wake (m : CpuListMem ι I) (lock cpu : ι) : Option (CpuListMem ι I) :=
  if m.empty lock then some m
  else
    match m.shift lock with
    | some (m, some item) => m.unshift cpu item
    | _ => none

section Contents

variable (d : CpuDeques ι I) (i : ι)

theorem contents_shift : ((cpuDeques ι I).step d (.shift i)).1.contents =
    Function.update d.contents i ((d.items i).tail.filterMap d.content) :=
  Function.comp_update _ _ _ _

theorem contents_unshift (a : ℕ) : ((cpuDeques ι I).step d (.unshift i a)).1.contents =
    Function.update d.contents i ((a :: d.items i).filterMap d.content) :=
  Function.comp_update _ _ _ _

variable {d i}

/-- An item that has been taken off a list is in none. -/
theorem CpuListMem.Represents.detached_shift {m : CpuListMem ι I} (h : m.Represents d) {a : ℕ}
    {l : List ℕ} (hi : d.items i = a :: l) : ((cpuDeques ι I).step d (.shift i)).1.Detached a := by
  have hmem : a ∈ d.items i := hi ▸ List.mem_cons_self
  have hnodup := h.threaded.nodup i
  refine ⟨h.content ▸ h.isSome_content hmem, fun j hj => ?_⟩
  have hj' : a ∈ Function.update d.items i (d.items i).tail j := hj
  by_cases hji : j = i
  · rw [hi] at hnodup
    rw [hji, Function.update_self, hi] at hj'
    exact (List.nodup_cons.mp hnodup).1 hj'
  · rw [Function.update_of_ne hji] at hj'
    exact hji (h.threaded.apart j i a hj' hmem)

end Contents

/-- **`wakeFirst` of the model is a move of an item between two lists in memory.** -/
theorem CpuListMem.Represents.wake {m : CpuListMem ι (CpuListItem E)}
    {d : CpuDeques ι (CpuListItem E)} (h : m.Represents d) {lock cpu : ι} (hne : lock ≠ cpu)
    {c : CpuState E} (hc : c.queue = d.contents cpu) : ∃ m' d', m.wake lock cpu = some m' ∧
      m'.Represents d' ∧ d'.contents = Function.update
        (Function.update d.contents lock (d.contents lock).tail) cpu
          (wakeFirst c (d.contents lock)).queue := by
  obtain ⟨m₁, hshift, h₁⟩ := h.shift lock
  cases hi : d.items lock with
  | nil =>
    have hnone : d.contents lock = [] := congrArg (List.filterMap d.content) hi
    refine ⟨m, d, if_pos (by rw [h.empty, hi]; rfl), h, ?_⟩
    rw [hnone, List.tail_nil, ← hnone, Function.update_eq_self, hnone, wakeFirst, hc,
      Function.update_eq_self]
  | cons a l =>
    obtain ⟨x, hx⟩ : ∃ x, d.content a = some x := by
      rw [← Option.isSome_iff_exists, ← h.content]
      exact h.isSome_content (hi ▸ List.mem_cons_self)
    have hlock : d.contents lock = x :: l.filterMap d.content :=
      (congrArg (List.filterMap d.content) hi).trans (List.filterMap_cons_some hx)
    rw [hi] at hshift
    obtain ⟨m₂, hunshift, h₂⟩ := h₁.unshift (h.detached_shift hi) cpu
    refine ⟨m₂, _, ?_, h₂, ?_⟩
    · have hempty : m.empty lock = false := by
        rw [h.empty, hi]
        rfl
      rw [CpuListMem.wake, hempty, hshift]
      exact hunshift
    · have hcpu : ((cpuDeques ι _).step d (.shift lock)).1.items cpu = d.items cpu :=
        Function.update_of_ne hne.symm _ _
      rw [contents_unshift, contents_shift, hcpu, hi, hlock, List.tail_cons, wakeFirst, hc,
        List.tail_cons]
      exact congrArg _ (List.filterMap_cons_some hx)

/-! ## 4. The queues of updates -/

/-- `queue_elem_t`.  The data are a pointer, which may be `NULL`. -/
structure QueueElem (α : Type) where
  data : Option α
  next : Option ℕ

/-- The queues (`queue_t` has only the two ends), and the elements that have been allocated. -/
structure QueueMem (ι α : Type) where
  queues : ι → Ends ℕ
  elems : ℕ → Option (QueueElem α)

/-- The calls; an element is allocated at `a`. -/
inductive QueueOp (ι α : Type)
  | enqueue (i : ι) (data : Option α) (a : ℕ)
  | dequeue (i : ι)
  | peek (i : ι)
  | isEmpty (i : ι)

namespace QueueMem

/-- `queue_new`, for all queues. -/
def init : QueueMem ι α := ⟨fun _ => ⟨none, none⟩, fun _ => none⟩

variable (m : QueueMem ι α)

/-- `elem->next`, for all elements. -/
def next : ℕ → Option (Option ℕ) := Option.map QueueElem.next ∘ m.elems

/-- The data of all elements. -/
def data : ℕ → Option (Option α) := Option.map QueueElem.data ∘ m.elems

def setElem (a : ℕ) (elem : Option (QueueElem α)) : QueueMem ι α :=
  { m with elems := Function.update m.elems a elem }

def setQueue (i : ι) (queue : Ends ℕ) : QueueMem ι α :=
  { m with queues := Function.update m.queues i queue }

/-- `elem->next = p` -/
def setNext (a : ℕ) (p : Option ℕ) : Option (QueueMem ι α) :=
  (m.elems a).map fun elem => m.setElem a (some { elem with next := p })

/-- `queue_enqueue` -/
def enqueue (i : ι) (data : Option α) (elem : ℕ) : Option (QueueMem ι α) :=
  let queue := m.queues i
  let m := m.setElem elem (some ⟨data, none⟩)
  let head := if queue.head = none then some elem else queue.head
  match queue.tail with
  | none => some (m.setQueue i ⟨head, some elem⟩)
  | some last => (m.setNext last (some elem)).map fun m => m.setQueue i ⟨head, some elem⟩

/-- `queue_dequeue` -/
def dequeue (i : ι) : Option (QueueMem ι α × Option α) :=
  let queue := m.queues i
  match queue.head with
  | none => some (m, none)
  | some elem =>
    match m.elems elem with
    | none => none
    | some ⟨data, next⟩ =>
      let queue := if next = none then ⟨none, none⟩ else { queue with head := next }
      some ((m.setQueue i queue).setElem elem none, data)

/-- `queue_peek` -/
def peek (i : ι) : Option (Option α) :=
  match (m.queues i).head with
  | none => some none
  | some elem => m.data elem

/-- `queue_is_empty` -/
def isEmpty (i : ι) : Bool := (m.queues i).head.isNone

def step : QueueOp ι α → Option (QueueMem ι α × ListResult α)
  | .enqueue i data a => (m.enqueue i data a).map fun m => (m, .done)
  | .dequeue i => (m.dequeue i).map fun x => (x.1, .pointer x.2)
  | .peek i => (m.peek i).map fun p => (m, .pointer p)
  | .isEmpty i => some (m, .flag (m.isEmpty i))

end QueueMem

/-- `queue.c` -/
def queueMem (ι α : Type) [DecidableEq ι] :
    Implementation (QueueOp ι α) (ListResult α) (QueueMem ι α) where
  init := .init
  step := QueueMem.step

/-- Plain queues; an element comes with its address, because `malloc` returns one that is not in
use. -/
def fifoQueues (ι α : Type) [DecidableEq ι] :
    DataType (QueueOp ι α) (ListResult α) (ι → List (ℕ × Option α)) where
  init _ := []
  step q
    | .enqueue i data a => (Function.update q i (q i ++ [(a, data)]), .done)
    | .dequeue i => (Function.update q i (q i).tail, .pointer ((q i).head?.bind Prod.snd))
    | .peek i => (q, .pointer ((q i).head?.bind Prod.snd))
    | .isEmpty i => (q, .flag (q i).isEmpty)
  Allows q
    | .enqueue _ _ a => ∀ j, a ∉ (q j).map Prod.fst
    | _ => True

namespace QueueMem

/-- The memory holds the queues, and no other elements. -/
structure Represents (m : QueueMem ι α) (q : ι → List (ℕ × Option α)) : Prop where
  threaded : Threaded m.next m.queues (List.map Prod.fst ∘ q)
  data (i : ι) (x : ℕ × Option α) (hx : x ∈ q i) : m.data x.1 = some x.2
  exists_iff (a : ℕ) : (m.elems a).isSome ↔ ∃ i, a ∈ (q i).map Prod.fst

section Memory

omit [DecidableEq ι]

variable (m : QueueMem ι α) {a : ℕ}

theorem next_setElem (a : ℕ) (elem : Option (QueueElem α)) :
    (m.setElem a elem).next = Function.update m.next a (elem.map QueueElem.next) :=
  Function.comp_update _ _ _ _

theorem data_setElem (a : ℕ) (elem : Option (QueueElem α)) :
    (m.setElem a elem).data = Function.update m.data a (elem.map QueueElem.data) :=
  Function.comp_update _ _ _ _

theorem isSome_setElem (a b : ℕ) (elem : Option (QueueElem α)) :
    ((m.setElem a elem).elems b).isSome = if b = a then elem.isSome else (m.elems b).isSome := by
  show (Function.update m.elems a elem b).isSome = _
  rw [Function.update_apply]
  split <;> rfl

variable {m}

/-- Writing to the `next` of an element that exists. -/
theorem exists_setNext (p : Option ℕ) (ha : (m.elems a).isSome) :
    ∃ m', m.setNext a p = some m' ∧ m'.next = Function.update m.next a (some p) ∧
      m'.queues = m.queues ∧ m'.data = m.data ∧
        ∀ b, (m'.elems b).isSome = (m.elems b).isSome := by
  obtain ⟨elem, helem⟩ := Option.isSome_iff_exists.mp ha
  have hdata : some elem.data = m.data a := by
    rw [data, Function.comp_apply, helem, Option.map_some]
  refine ⟨m.setElem a (some { elem with next := p }), by rw [setNext, helem, Option.map_some],
    next_setElem m a _, rfl, ?_, fun b => ?_⟩
  · rw [data_setElem, Option.map_some, hdata, Function.update_eq_self]
  · rw [isSome_setElem]
    split
    · rename_i hb
      rw [hb, ha, Option.isSome_some]
    · rfl

end Memory

variable {m m' : QueueMem ι α} {q : ι → List (ℕ × Option α)} {i : ι}

theorem init_represents : (init : QueueMem ι α).Represents (fifoQueues ι α).init where
  threaded := ⟨fun _ => .nil none, fun _ => rfl, fun _ _ _ h => by cases h⟩
  data _ _ h := by cases h
  exists_iff _ := iff_of_false Bool.false_ne_true (by rintro ⟨_, h⟩; cases h)

namespace Represents

omit [DecidableEq ι] in
theorem head_none (h : m.Represents q) (i : ι) : (m.queues i).head = none ↔ q i = [] := by
  rw [h.threaded.head_none, Function.comp_apply, List.map_eq_nil_iff]

omit [DecidableEq ι] in
theorem isEmpty (h : m.Represents q) (i : ι) : m.isEmpty i = (q i).isEmpty := by
  rw [QueueMem.isEmpty, h.threaded.head i, Function.comp_apply]
  cases q i <;> rfl

omit [DecidableEq ι] in
theorem peek (h : m.Represents q) (i : ι) : m.peek i = some ((q i).head?.bind Prod.snd) := by
  have hhead := h.threaded.head i
  rw [Function.comp_apply] at hhead
  cases hi : q i with
  | nil =>
    rw [hi] at hhead
    simp only [QueueMem.peek, hhead, List.map_nil, List.head?_nil, Option.bind_none]
  | cons x l =>
    rw [hi] at hhead
    simp only [QueueMem.peek, hhead, List.map_cons, List.head?_cons, Option.bind_some]
    exact h.data i x (hi ▸ List.mem_cons_self)

/-- A new element at the end of a queue. -/
theorem append {m₁ : QueueMem ι α} (h : m.Represents q) {a : ℕ} (ha : ∀ j, a ∉ (q j).map Prod.fst)
    {data : Option α} {ends : Ends ℕ} (hqueues : m₁.queues = m.queues)
    (hthreaded : Threaded m₁.next (Function.update m.queues i ends)
      (Function.update (List.map Prod.fst ∘ q) i ((q i).map Prod.fst ++ [a])))
    (hdata : m₁.data = Function.update m.data a (some data))
    (hexists : ∀ b, (m₁.elems b).isSome ↔ b = a ∨ (m.elems b).isSome) :
    (m₁.setQueue i ends).Represents (Function.update q i (q i ++ [(a, data)])) := by
  refine ⟨?_, fun j x hx => ?_, fun b => ?_⟩
  · rw [Function.comp_update, List.map_append, QueueMem.setQueue, hqueues]
    exact hthreaded
  · have hold : ∀ x ∈ q j, m₁.data x.1 = some x.2 := fun x hx => by
      have hxa : x.1 ≠ a := fun hxa => ha j (List.mem_map.mpr ⟨x, hx, hxa⟩)
      rw [hdata, Function.update_of_ne hxa]
      exact h.data j x hx
    show m₁.data x.1 = some x.2
    by_cases hj : j = i
    · subst hj
      rw [Function.update_self] at hx
      rcases List.mem_append.mp hx with hx | hx
      · exact hold x hx
      · rw [List.mem_singleton.mp hx, hdata, Function.update_self]
    · rw [Function.update_of_ne hj] at hx
      exact hold x hx
  · show (m₁.elems b).isSome ↔ _
    rw [hexists, h.exists_iff]
    constructor
    · rintro (rfl | ⟨j, hj⟩)
      · exact ⟨i, by simp⟩
      · refine ⟨j, ?_⟩
        by_cases hji : j = i
        · subst hji
          rw [Function.update_self, List.map_append]
          exact List.mem_append_left _ hj
        · rwa [Function.update_of_ne hji]
    · rintro ⟨j, hj⟩
      by_cases hji : j = i
      · subst hji
        rw [Function.update_self, List.map_append, List.mem_append] at hj
        rcases hj with hj | hj
        · exact .inr ⟨j, hj⟩
        · exact .inl (List.mem_singleton.mp hj)
      · rw [Function.update_of_ne hji] at hj
        exact .inr ⟨j, hj⟩

theorem enqueue (h : m.Represents q) {a : ℕ} (ha : ∀ j, a ∉ (q j).map Prod.fst) (i : ι)
    (data : Option α) : ∃ m', m.enqueue i data a = some m' ∧
      m'.Represents (Function.update q i (q i ++ [(a, data)])) := by
  let m₁ := m.setElem a (some ⟨data, none⟩)
  have hnext : m₁.next = Function.update m.next a (some none) := next_setElem m a _
  have hnone : m₁.next a = some none := by rw [hnext, Function.update_self]
  have hdata : m₁.data = Function.update m.data a (some data) := data_setElem m a _
  have hexists : ∀ b, (m₁.elems b).isSome ↔ b = a ∨ (m.elems b).isSome := fun b => by
    rw [isSome_setElem]
    split
    · rename_i hb
      exact iff_of_true rfl (.inl hb)
    · rename_i hb
      exact (or_iff_right hb).symm
  -- the new element is in none of the queues
  have hthreaded : Threaded m₁.next m.queues (List.map Prod.fst ∘ q) := by
    refine h.threaded.congr fun j b hb => ?_
    have hba : b ≠ a := fun hba => ha j (hba ▸ hb)
    rw [hnext, Function.update_of_ne hba]
  have htail := hthreaded.tail_none i
  have hhead := hthreaded.head_none i
  unfold QueueMem.enqueue
  dsimp only
  split
  · rename_i hlast
    have hempty := htail.mp hlast
    refine ⟨_, rfl, h.append ha rfl ?_ hdata hexists⟩
    rw [if_pos (hhead.mpr hempty), show (q i).map Prod.fst = [] from hempty]
    exact hthreaded.first hnone ha i
  · rename_i last hlast
    have hmem : last ∈ (q i).map Prod.fst :=
      List.mem_of_getLast? ((hthreaded.tail i).symm.trans hlast)
    have hsome : (m₁.elems last).isSome :=
      (hexists last).mpr (.inr ((h.exists_iff last).mpr ⟨i, hmem⟩))
    obtain ⟨m₂, hset, hnext₂, hqueues₂, hdata₂, hexists₂⟩ := exists_setNext (some a) hsome
    have hne : (m.queues i).head ≠ none := fun hnil => by
      rw [show (q i).map Prod.fst = [] from hhead.mp hnil] at hmem
      cases hmem
    refine ⟨m₂.setQueue i ⟨(m.queues i).head, some a⟩, ?_, h.append ha hqueues₂ ?_
      (hdata₂.trans hdata) fun b => ?_⟩
    · rw [if_neg hne]
      exact congrArg (Option.map _) hset
    · rw [hnext₂]
      exact hthreaded.hang hnone ha hlast
    · rw [hexists₂]
      exact hexists b

/-- The first element of a queue goes away. -/
theorem removed (h : m.Represents q) {x : ℕ × Option α} {l : List (ℕ × Option α)}
    (hi : q i = x :: l) :
    ((m.setQueue i ⟨(l.map Prod.fst).head?,
      if l.map Prod.fst = [] then none else (m.queues i).tail⟩).setElem x.1 none).Represents
        (Function.update q i l) := by
  have hlist : (List.map Prod.fst ∘ q) i = x.1 :: l.map Prod.fst := by
    rw [Function.comp_apply, hi, List.map_cons]
  have hnodup := h.threaded.nodup i
  have hmem : x.1 ∈ (List.map Prod.fst ∘ q) i := hlist ▸ List.mem_cons_self
  rw [hlist, List.nodup_cons] at hnodup
  -- no queue has it now
  have hgone : ∀ j, x.1 ∉ (Function.update q i l j).map Prod.fst := fun j hj => by
    by_cases hji : j = i
    · rw [hji, Function.update_self] at hj
      exact hnodup.1 hj
    · rw [Function.update_of_ne hji] at hj
      exact hji (h.threaded.apart j i x.1 hj hmem)
  have hsub : ∀ j, ∀ y ∈ Function.update q i l j, y ∈ q j := fun j y hy => by
    by_cases hji : j = i
    · subst hji
      rw [Function.update_self] at hy
      exact hi ▸ List.mem_cons_of_mem x hy
    · rwa [Function.update_of_ne hji] at hy
  refine ⟨?_, fun j y hy => ?_, fun b => ?_⟩
  · rw [Function.comp_update]
    refine h.threaded.unlink hlist fun b hb => ?_
    rw [next_setElem, Function.update_of_ne hb]
    rfl
  · have hyx : y.1 ≠ x.1 := fun hyx => hgone j (List.mem_map.mpr ⟨y, hy, hyx⟩)
    rw [data_setElem, Function.update_of_ne hyx]
    exact h.data j y (hsub j y hy)
  · rw [isSome_setElem]
    split
    · rename_i hb
      subst hb
      exact iff_of_false Bool.false_ne_true (not_exists.mpr hgone)
    · rename_i hb
      refine (h.exists_iff b).trans (exists_congr fun j => ?_)
      by_cases hji : j = i
      · subst hji
        rw [Function.update_self, hi, List.map_cons, List.mem_cons, or_iff_right hb]
      · rw [Function.update_of_ne hji]

theorem dequeue (h : m.Represents q) (i : ι) :
    ∃ m', m.dequeue i = some (m', (q i).head?.bind Prod.snd) ∧
      m'.Represents (Function.update q i (q i).tail) := by
  have hhead := h.threaded.head i
  rw [Function.comp_apply] at hhead
  cases hi : q i with
  | nil =>
    rw [hi] at hhead
    refine ⟨m, ?_, ?_⟩
    · simp only [QueueMem.dequeue, hhead, List.map_nil, List.head?_nil, Option.bind_none]
    · rwa [List.tail_nil, ← hi, Function.update_eq_self]
  | cons x l =>
    have hlist : (List.map Prod.fst ∘ q) i = x.1 :: l.map Prod.fst := by
      rw [Function.comp_apply, hi, List.map_cons]
    have hdata : m.data x.1 = some x.2 := h.data i x (hi ▸ List.mem_cons_self)
    have hnext := h.threaded.next_head hlist
    have helem : m.elems x.1 = some ⟨x.2, (l.map Prod.fst).head?⟩ := by
      obtain ⟨elem, helem, hx⟩ := Option.map_eq_some_iff.mp hdata
      obtain ⟨elem', helem', hl⟩ := Option.map_eq_some_iff.mp hnext
      obtain rfl := Option.some.inj (helem.symm.trans helem')
      rw [helem, ← hx, ← hl]
    let queue : Ends ℕ := ⟨(l.map Prod.fst).head?,
      if l.map Prod.fst = [] then none else (m.queues i).tail⟩
    refine ⟨(m.setQueue i queue).setElem x.1 none, ?_, ?_⟩
    · have hqueue : (if (l.map Prod.fst).head? = none then ⟨none, none⟩
          else { m.queues i with head := (l.map Prod.fst).head? }) = queue := by
        cases l <;> rfl
      rw [hi] at hhead
      simp only [QueueMem.dequeue, hhead, List.map_cons, List.head?_cons, helem, hqueue,
        Option.bind_some]
    · exact h.removed hi

end Represents

end QueueMem

/-- **The queues are first in, first out.** -/
theorem queueMem_refines : (queueMem ι α).Refines (fifoQueues ι α) QueueMem.Represents where
  init := QueueMem.init_represents
  step m q op h hop := by
    cases op with
    | enqueue i data a =>
      obtain ⟨m', hm', h'⟩ := h.enqueue hop i data
      exact ⟨m', congrArg (Option.map _) hm', h'⟩
    | dequeue i =>
      obtain ⟨m', hm', h'⟩ := h.dequeue i
      exact ⟨m', congrArg (Option.map _) hm', h'⟩
    | peek i => exact ⟨m, congrArg (Option.map _) (h.peek i), h⟩
    | isEmpty i => exact ⟨m, congrArg (fun b => some (m, ListResult.flag b)) (h.isEmpty i), h⟩

/-! ## 5. Any calls -/

/-- What a call puts into the queue `i`. -/
def QueueOp.puts (i : ι) : QueueOp ι α → List (Option α)
  | .enqueue j data _ => if j = i then [data] else []
  | _ => []

/-- What a call takes out of the queue `i`. -/
def QueueOp.takes (i : ι) (q : ι → List (ℕ × Option α)) : QueueOp ι α → List (Option α)
  | .dequeue j => if j = i then (q i).head?.toList.map Prod.snd else []
  | _ => []

/-- What comes out of the queue `i`, in this order. -/
def queueTaken (i : ι) : (ι → List (ℕ × Option α)) → List (QueueOp ι α) → List (Option α)
  | _, [] => []
  | q, op :: ops => op.takes i q ++ queueTaken i ((fifoQueues ι α).step q op).1 ops

/-- What is in a queue and what is put into it comes out in this order, or is still there. -/
theorem queueTaken_append (i : ι) (q : ι → List (ℕ × Option α)) (ops : List (QueueOp ι α)) :
    (q i).map Prod.snd ++ ops.flatMap (QueueOp.puts i) =
      queueTaken i q ops ++ ((fifoQueues ι α).after q ops i).map Prod.snd := by
  induction ops generalizing q with
  | nil => exact List.append_nil _
  | cons op ops ih =>
    have hstep : (q i).map Prod.snd ++ op.puts i =
        op.takes i q ++ (((fifoQueues ι α).step q op).1 i).map Prod.snd := by
      cases op with
      | enqueue j data a =>
        by_cases hj : j = i
        · subst hj
          simp [QueueOp.puts, QueueOp.takes, fifoQueues]
        · simp [QueueOp.puts, QueueOp.takes, fifoQueues, hj, Ne.symm hj]
      | dequeue j =>
        by_cases hj : j = i
        · subst hj
          cases hq : q j <;> simp [QueueOp.puts, QueueOp.takes, fifoQueues, hq]
        · simp [QueueOp.puts, QueueOp.takes, fifoQueues, hj, Ne.symm hj]
      | peek | isEmpty => exact List.append_nil _
    rw [List.flatMap_cons, ← List.append_assoc, hstep, List.append_assoc, ih, queueTaken,
      List.append_assoc, DataType.after_cons]

/-- **The lists of the CPU are deques, and the queues are first in, first out.**  Whatever is called,
on whichever lists, with detached items, goes through and returns what plain deques return; in the
memory each list then is what the deque is, up to its last item, with the right ends.  `size` is its
length modulo `2 ^ 32`.  Likewise for the queues: what has been put into one has come out once, in
this order, or is still in it. -/
theorem linked_lists :
    (∀ ops : List (CpuListOp ι I), (cpuDeques ι I).AllowsAll (cpuDeques ι I).init ops →
      ∃ m d, (cpuLists ι I).run (cpuLists ι I).init ops =
          some (m, (cpuDeques ι I).results (cpuDeques ι I).init ops) ∧
        d = (cpuDeques ι I).after (cpuDeques ι I).init ops ∧ m.content = d.content ∧
        ∀ i, Segment m.next (m.lists i).head (d.items i) none ∧
          (m.lists i).size = (d.items i).length % uintSize ∧
          (m.lists i).tail = (d.items i).getLast? ∧ ((m.lists i).head = none ↔ d.items i = []) ∧
            ((m.lists i).tail = none ↔ d.items i = [])) ∧
    ∀ ops : List (QueueOp ι α), (fifoQueues ι α).AllowsAll (fifoQueues ι α).init ops →
      ∃ m q, (queueMem ι α).run (queueMem ι α).init ops =
          some (m, (fifoQueues ι α).results (fifoQueues ι α).init ops) ∧
        q = (fifoQueues ι α).after (fifoQueues ι α).init ops ∧
        ∀ i, ops.flatMap (QueueOp.puts i) =
            queueTaken i (fifoQueues ι α).init ops ++ (q i).map Prod.snd ∧
          (m.isEmpty i = true ↔ q i = []) ∧ m.peek i = some ((q i).head?.bind Prod.snd) := by
  refine ⟨fun ops hops => ?_, fun ops hops => ?_⟩
  · obtain ⟨m, hrun, h⟩ := cpuLists_refines.run hops
    exact ⟨m, _, hrun, rfl, h.content, fun i => ⟨h.threaded.segment i, h.size i, h.threaded.tail i,
      h.threaded.head_none i, h.threaded.tail_none i⟩⟩
  · obtain ⟨m, hrun, h⟩ := queueMem_refines.run hops
    refine ⟨m, _, hrun, rfl, fun i => ⟨?_, ?_, h.peek i⟩⟩
    · exact queueTaken_append i (fifoQueues ι α).init ops
    · rw [h.isEmpty, List.isEmpty_iff]

/-- Two items are put into a list, and the first one is moved to another list. -/
def moveItem : List (CpuListOp Bool Unit) :=
  [.itemNew 0 (), .itemNew 1 (), .push false 0, .push false 1, .shift false, .unshift true 0]

/-- Two elements go into a queue, and one comes out. -/
def takeOne : List (QueueOp Unit ℕ) :=
  [.enqueue () (some 5) 0, .enqueue () (some 7) 1, .dequeue (), .isEmpty ()]

theorem moveItem_allowed :
    (cpuDeques Bool Unit).AllowsAll (cpuDeques Bool Unit).init moveItem := by
  refine ⟨rfl, rfl, ⟨rfl, ?_⟩, ⟨rfl, ?_⟩, trivial, ⟨rfl, ?_⟩, trivial⟩ <;> decide

theorem takeOne_allowed :
    (fifoQueues Unit ℕ).AllowsAll (fifoQueues Unit ℕ).init takeOne := by
  refine ⟨fun () => ?_, fun () => ?_, trivial, trivial, trivial⟩ <;> decide

theorem linked_lists_move :
    (∃ m results, (cpuLists Bool Unit).run (cpuLists Bool Unit).init moveItem = some (m, results) ∧
      (m.lists false).size = 1 ∧ (m.lists false).tail = some 1 ∧
        Segment m.next (m.lists true).head [0] none) ∧
    ∃ m results, (queueMem Unit ℕ).run (queueMem Unit ℕ).init takeOne = some (m, results) ∧
      m.isEmpty () = false ∧ m.peek () = some (some 7) := by
  obtain ⟨m, _, hrun, rfl, -, h⟩ := (@linked_lists Bool Unit ℕ _).1 moveItem moveItem_allowed
  obtain ⟨-, hsize, htail, -⟩ := h false
  obtain ⟨n, _, hrun', rfl, h'⟩ := (@linked_lists Unit Unit ℕ _).2 takeOne takeOne_allowed
  obtain ⟨-, hempty, hpeek⟩ := h' ()
  refine ⟨⟨m, _, hrun, hsize, htail, (h true).1⟩, n, _, hrun', ?_, hpeek⟩
  exact eq_false_of_ne_true fun hn => List.cons_ne_nil _ _ (hempty.mp hn)

/-- The first `n` items are put into a list. -/
@[irreducible] def pushes (n : ℕ) : List (CpuListOp Unit Unit) :=
  (List.range n).flatMap fun a => [.itemNew a (), .push () a]

theorem after_pushes (n : ℕ) :
    (cpuDeques Unit Unit).AllowsAll (cpuDeques Unit Unit).init (pushes n) ∧
      (cpuDeques Unit Unit).after (cpuDeques Unit Unit).init (pushes n) =
        ⟨fun _ => List.range n, fun a => if a < n then some () else none⟩ := by
  induction n with
  | zero =>
    rw [pushes]
    exact ⟨trivial, rfl⟩
  | succ n ih =>
    have hsucc : pushes (n + 1) = pushes n ++ [.itemNew n (), .push () n] := by
      rw [pushes, pushes, List.range_succ, List.flatMap_append]
      rfl
    rw [hsucc, DataType.allowsAll_append, DataType.after_append, ih.2]
    refine ⟨⟨ih.1, if_neg (Nat.lt_irrefl n), ⟨?_, fun _ => ?_⟩, trivial⟩, ?_⟩
    · have hnew : Function.update (fun a => if a < n then some () else none) n (some ()) n =
          some () := Function.update_self _ _ _
      exact congrArg Option.isSome hnew
    · exact List.not_mem_range_self
    · show (⟨Function.update _ () (List.range n ++ [n]), Function.update _ n (some ())⟩ :
        CpuDeques Unit Unit) = _
      congr 1
      · funext _
        rw [Function.update_self, List.range_succ]
      · funext a
        rw [Function.update_apply]
        by_cases ha : a = n
        · rw [if_pos ha, if_pos (by omega)]
        · rw [if_neg ha]
          exact if_congr (by omega) rfl rfl

theorem length_pushes (n : ℕ) :
    (((cpuDeques Unit Unit).after (cpuDeques Unit Unit).init (pushes n)).items ()).length = n := by
  rw [(after_pushes n).2]
  exact List.length_range

theorem run_pushes (n : ℕ) : ∃ m results,
    (cpuLists Unit Unit).run (cpuLists Unit Unit).init (pushes n) = some (m, results) ∧
      (m.lists ()).size = n % uintSize := by
  obtain ⟨m, hrun, h⟩ := (@cpuLists_refines Unit Unit _).run (after_pushes n).1
  refine ⟨m, _, hrun, ?_⟩
  rw [h.size, length_pushes]

/-- **After `uintSize` items, which is `2 ^ 32`, `size` is 0** and no longer the length. -/
theorem cpu_list_size_wraps : ∃ ops : List (CpuListOp Unit Unit), ops = pushes uintSize ∧
    (cpuDeques Unit Unit).AllowsAll (cpuDeques Unit Unit).init ops ∧
      ∃ m results, (cpuLists Unit Unit).run (cpuLists Unit Unit).init ops = some (m, results) ∧
        (m.lists ()).size = 0 ∧
          (((cpuDeques Unit Unit).after (cpuDeques Unit Unit).init ops).items ()).length =
            uintSize := by
  obtain ⟨m, results, hrun, hsize⟩ := run_pushes uintSize
  exact ⟨pushes uintSize, rfl, (after_pushes uintSize).1, m, results, hrun,
    hsize.trans (Nat.mod_self _), length_pushes uintSize⟩

end CCSim
