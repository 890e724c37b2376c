/-
# What both protocols share: version chains, slots and the queue of replica updates

`server/protocols/gr/store.c` and `.../grv/store.c` differ only in what an item carries and in
when it is visible, `replication.c` only in what happens to a conflicting update that is newer
than the item it finds.  So the functions are written once here, with these differences as
parameters, and each protocol applies them under its own names.  `ptr_array.c` is here too.

A chain of versions (`item->previous_version`) is a list, the latest first.  An item, an update
and a request also carry `past`: the versions its writer had read or written before.  No branch
of the code looks at it; it records what a causality property talks about.
-/
import Mathlib.Algebra.Order.Field.Rat
import Mathlib.Data.Prod.Lex
import Mathlib.Logic.Function.Basic

namespace CCSim

/-! ## 1. Versions and items -/

/-- A version of a key, as far as it can be told from other versions. -/
structure Version (R : Type) where
  key : ℕ
  value : ℕ
  updateTime : ℚ
  source : R
  deriving DecidableEq, Repr

/-- The order in which conflicts are resolved: by update time, then by source replica. -/
def Version.Older {R : Type} [LT R] (v w : Version R) : Prop :=
  v.updateTime < w.updateTime ∨ v.updateTime = w.updateTime ∧ v.source < w.source

instance {R : Type} [LT R] [DecidableEq R] [DecidableRel (α := R) (· < ·)] (v w : Version R) :
    Decidable (v.Older w) := inferInstanceAs (Decidable (_ ∨ _ ∧ _))

theorem Version.Older.irrefl {R : Type} [Preorder R] {v : Version R} : ¬v.Older v := by
  rintro (h | ⟨-, h⟩) <;> exact lt_irrefl _ h

theorem Version.Older.trans {R : Type} [Preorder R] {u v w : Version R} (h : u.Older v)
    (h' : v.Older w) : u.Older w := by
  rcases h with h | ⟨h1, h2⟩ <;> rcases h' with h' | ⟨h3, h4⟩
  · exact .inl (h.trans h')
  · exact .inl (h3 ▸ h)
  · exact .inl (h1 ▸ h')
  · exact .inr ⟨h1.trans h3, h2.trans h4⟩

/-- `item_t`; `D` is the type of dependency vectors. -/
structure Item (R D : Type) where
  value : ℕ
  updateTime : ℚ
  dependencyVector : D
  sourceReplica : R
  past : List (Version R)

variable {R D : Type}

def Item.version (key : ℕ) (item : Item R D) : Version R :=
  ⟨key, item.value, item.updateTime, item.sourceReplica⟩

/-- What a client knows more after it has read an item. -/
def readPast (key : ℕ) (item : Option (Item R D)) : List (Version R) :=
  match item with
  | none => []
  | some item => item.version key :: item.past

/-- `store_t`: the chain of every key. -/
abbrev Store (R D : Type) := ℕ → List (Item R D)

/-- `gr_get_value_at` and `grv_get_value_at`: the latest item of a chain that is visible. -/
def getValueAt (store : Store R D) (key : ℕ) (isVisible : Item R D → Bool) : Option (Item R D) :=
  (store key).find? isVisible

/-- What the callers of `gr_get_value_at` see of an item, or of no item. -/
def valueOf (item : Option (Item R D)) : ℕ := (item.map Item.value).getD 0
def updateTimeOf (item : Option (Item R D)) : ℚ := (item.map Item.updateTime).getD 0
def sourceReplicaOf (zero : R) (item : Option (Item R D)) : R :=
  (item.map Item.sourceReplica).getD zero

/-- `gr_put_value` and `grv_put_value`: an item that is older than the latest one is discarded.
The assertion that the server holds the key is left to the callers. -/
def putValue (store : Store R D) (key : ℕ) (item : Item R D) : Option (Store R D) :=
  match store key with
  | [] => some (Function.update store key [item])
  | previousVersion :: chain =>
    if item.updateTime < previousVersion.updateTime then none
    else some (Function.update store key (item :: previousVersion :: chain))

/-- An item that is not discarded goes on top, and is not older than what it covers. -/
theorem putValue_some {store store' : Store R D} {key : ℕ} {item : Item R D}
    (h : putValue store key item = some store') :
    store' = Function.update store key (item :: store key) ∧
      ∀ x ∈ (store key).head?, x.updateTime ≤ item.updateTime := by
  unfold putValue at h
  split at h
  · rename_i hc
    cases h
    rw [hc]
    exact ⟨rfl, by rintro _ ⟨⟩⟩
  · rename_i y chain hc
    split at h <;> cases h
    rw [hc]
    refine ⟨rfl, ?_⟩
    rintro _ ⟨⟩
    exact not_lt.mp (by assumption)

/-! ## 2. Slots -/

/-- `ptr_array_t`: the slots that are `NULL` are free. -/
abbrev PtrArray (α : Type) := List (Option α)

/-- `ptr_array_get`, `none` being a slot that is free or out of range. -/
def ptrArrayGet {α : Type} (a : PtrArray α) (id : ℕ) : Option α := a[id]?.join

/-- `ptr_array_set`. -/
def ptrArraySet {α : Type} (a : PtrArray α) (id : ℕ) (x : Option α) : PtrArray α := a.set id x

/-- The slot `ptr_array_put` uses: the first free one, or a new one. -/
def ptrArrayFree {α : Type} : PtrArray α → ℕ
  | [] => 0
  | none :: _ => 0
  | some _ :: a => ptrArrayFree a + 1

/-- `ptr_array_put`. -/
def ptrArrayPut {α : Type} (x : α) : PtrArray α → PtrArray α
  | [] => [some x]
  | none :: a => some x :: a
  | some y :: a => some y :: ptrArrayPut x a

theorem ptrArrayFree_get {α : Type} : ∀ a : PtrArray α, ptrArrayGet a (ptrArrayFree a) = none
  | [] => rfl
  | none :: _ => rfl
  | some _ :: a => by simpa [ptrArrayFree, ptrArrayGet] using ptrArrayFree_get a

theorem ptrArrayPut_get {α : Type} (x : α) : ∀ (a : PtrArray α) (i : ℕ),
    ptrArrayGet (ptrArrayPut x a) i = if i = ptrArrayFree a then some x else ptrArrayGet a i
  | [], i => by cases i <;> simp [ptrArrayPut, ptrArrayFree, ptrArrayGet]
  | none :: a, i => by cases i <;> simp [ptrArrayPut, ptrArrayFree, ptrArrayGet]
  | some y :: a, 0 => by simp [ptrArrayPut, ptrArrayFree, ptrArrayGet]
  | some y :: a, i + 1 => by
    simpa [ptrArrayPut, ptrArrayFree, ptrArrayGet] using ptrArrayPut_get x a i

/-- What a slot holds after another one was set. -/
theorem ptrArraySet_get {α : Type} {a : PtrArray α} {id : ℕ} {y : α}
    (h : ptrArrayGet a id = some y) (x : Option α) (i : ℕ) :
    ptrArrayGet (ptrArraySet a id x) i = if i = id then x else ptrArrayGet a i := by
  have hlt : id < a.length := by
    by_contra hn
    simp [ptrArrayGet, List.getElem?_eq_none (Nat.le_of_not_lt hn)] at h
  by_cases hi : i = id
  · subst hi; simp [ptrArrayGet, ptrArraySet, hlt]
  · simp [ptrArrayGet, ptrArraySet, List.getElem?_set_ne (Ne.symm hi), hi]

/-! ## 3. Replica updates -/

/-- `gr_replica_update_t` and `grv_replica_update_t`. -/
structure ReplicaUpdate (R D : Type) where
  key : ℕ
  value : ℕ
  updateTime : ℚ
  updateTimeNoSkew : ℚ
  sourceReplica : R
  previousUpdateTime : ℚ
  previousSourceReplica : R
  dependencyVector : D
  past : List (Version R)

def ReplicaUpdate.version (u : ReplicaUpdate R D) : Version R :=
  ⟨u.key, u.value, u.updateTime, u.sourceReplica⟩

/-- The item an update installs. -/
def ReplicaUpdate.item (u : ReplicaUpdate R D) : Item R D :=
  ⟨u.value, u.updateTime, u.dependencyVector, u.sourceReplica, u.past⟩

/-- What the treatment of replica updates depends on: the replica that receives them, the replica
0, the keys it holds, and whether a conflicting update that is newer than the latest item is
installed. -/
structure UpdateRules (R : Type) where
  self : R
  zero : R
  owns : ℕ → Bool
  installNewer : Bool

/-- The latest item of a key (`gr_always_visible`). -/
def latestItem (store : Store R D) (key : ℕ) : Option (Item R D) :=
  getValueAt store key fun _ => true

@[simp]
theorem latestItem_eq (store : Store R D) (key : ℕ) : latestItem store key = (store key).head? := by
  unfold latestItem getValueAt
  cases store key <;> rfl

/-- A version that is later than all items of its key is not among them, and not superseded. -/
theorem ReplicaUpdate.not_settled [LT R] {store : Store R D} {update : ReplicaUpdate R D}
    (h : ∀ x ∈ store update.key, x.updateTime < update.updateTime) :
    ¬(update.item ∈ store update.key ∨ ∃ latest ∈ latestItem store update.key,
      update.version.Older (latest.version update.key)) := by
  rintro (hmem | ⟨x, hx, hold⟩)
  · exact lt_irrefl _ (h _ hmem)
  · rw [latestItem_eq] at hx
    have hlt := h x (List.mem_of_mem_head? hx)
    rcases hold with hold | ⟨heq, -⟩
    · exact lt_asymm hlt hold
    · exact hlt.ne' heq

variable [DecidableEq R] [LT R] [DecidableRel (α := R) (· < ·)]

/-- The latest item is not the one the update was put on. -/
def ReplicaUpdate.Conflicts (zero : R) (store : Store R D) (update : ReplicaUpdate R D) : Prop :=
  update.previousUpdateTime ≠ updateTimeOf (latestItem store update.key) ∨
    update.previousSourceReplica ≠ sourceReplicaOf zero (latestItem store update.key)

/-- The update is older than the latest item. -/
def ReplicaUpdate.IsOlder (zero : R) (store : Store R D) (update : ReplicaUpdate R D) : Prop :=
  update.updateTime < updateTimeOf (latestItem store update.key) ∨
    update.updateTime = updateTimeOf (latestItem store update.key) ∧
      update.sourceReplica < sourceReplicaOf zero (latestItem store update.key)

instance (zero : R) (store : Store R D) (update : ReplicaUpdate R D) :
    Decidable (update.Conflicts zero store) := inferInstanceAs (Decidable (_ ∨ _))

instance (zero : R) (store : Store R D) (update : ReplicaUpdate R D) :
    Decidable (update.IsOlder zero store) := inferInstanceAs (Decidable (_ ∨ _ ∧ _))

/-- `gr_process_replica_update_work` and the dequeueing it goes through
`gr_process_replica_update_unlocked` for, on a queue whose first update is not being worked on:
updates that conflict and are older than the latest item are dropped, until the queue is empty or
an update is left to work on.  The result is the queue, and the update a lock is requested
for. -/
def replicaUpdateWork (rules : UpdateRules R) (store : Store R D) :
    List (ReplicaUpdate R D) → Option (List (ReplicaUpdate R D) × Option (ReplicaUpdate R D))
  | [] => some ([], none)
  | update :: queue =>
    if update.sourceReplica = rules.self ∨ ¬rules.owns update.key then none
    else if update.Conflicts rules.zero store then
      if update.IsOlder rules.zero store then
        if update.sourceReplica = sourceReplicaOf rules.zero (latestItem store update.key) then none
        else replicaUpdateWork rules store queue
      else if rules.installNewer then some (update :: queue, some update)
      else some (update :: queue, none)
    else some (update :: queue, some update)

/-- `gr_process_replica_update`: the queue after an update has arrived, and the update to work
on, if the queue was empty. -/
def replicaUpdateEnqueue (rules : UpdateRules R) (store : Store R D)
    (queue : List (ReplicaUpdate R D)) (update : ReplicaUpdate R D) :
    Option (List (ReplicaUpdate R D) × Option (ReplicaUpdate R D)) :=
  if queue = [] then replicaUpdateWork rules store [update]
  else some (queue ++ [update], none)

/-- `gr_process_replica_update_unlocked`: the update that was installed leaves the queue, and
the next one is worked on. -/
def replicaUpdateDequeue (rules : UpdateRules R) (store : Store R D)
    (queue : List (ReplicaUpdate R D)) (update : ReplicaUpdate R D) :
    Option (List (ReplicaUpdate R D) × Option (ReplicaUpdate R D)) :=
  match queue with
  | [] => none
  | enqueued :: queue =>
    if enqueued.version = update.version then replicaUpdateWork rules store queue else none

end CCSim
