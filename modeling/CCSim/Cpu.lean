/-
# The simulated CPU: cores, a run queue, locks and read-write locks

`cpu/cpu.c`, `cpu/lock.c`, `cpu/rwlock.c` and `cpu/schedule.c` put a CPU between the events of
a server and its handlers.  An event that finds every core busy waits in the CPU queue; a
handler that asks for a lock goes on in a later event, once the lock message is due and the
lock is free; a lock that is given back puts its first waiter at the FRONT of the CPU queue.

The source runs the handler from inside `cpu_process`.  Here that call is cut in two:
`cpuProcess` and the functions around it stop at a `Dispatch`, which says whether a handler is
to be run now and on which event, and the simulation kernel runs the handler and schedules what
follows from it (`Kernel.lean`).  At most one handler runs for one event of the CPU, because
every path through these functions ends in at most one call.  `none` is a failed assertion.

The second half of the file states what the CPU may do to the pending work of its server in the
words of `Lib/TaskPool.lean`: it moves tasks between queues, or it takes one that is ready.
The statistics of the CPU, and the event that samples them, are in `Cpu/Statistics.lean` and
`Cpu/Usage.lean`.
-/
import CCSim.Lib.TaskPool
import Mathlib.Algebra.BigOperators.Group.Multiset.Basic
import Mathlib.Algebra.Order.Group.Multiset
import Mathlib.Tactic.Abel

namespace CCSim

/-! ## 1. The state of a CPU -/

/-- `cpu_list_item_t`: an event, or a message asking for a lock on behalf of an event. -/
inductive CpuListItem (E : Type)
  | event (e : E)
  | lock (m : Mode) (id : ℕ) (e : E)
  deriving DecidableEq, Repr

/-- `cpu_lock_t`. -/
structure CpuLock (E : Type) where
  locked : Bool := false
  queue : List (CpuListItem E) := []

/-- `cpu_rwlock_t`: a reader waits when `writeLocked && counter == 0`, a writer when
`writeLocked`. -/
structure CpuRwlock (E : Type) where
  counter : ℕ := 0
  writeLocked : Bool := false
  queue : List (CpuListItem E) := []

/-- `cpu_state_t`, less its statistics and the fields that live for one event only. -/
structure CpuState (E : Type) where
  queue : List (CpuListItem E) := []
  cores : ℕ
  busyCores : ℕ := 0
  locks : List (CpuLock E) := []
  rwlocks : List (CpuRwlock E) := []

/-- The events of a server's CPU: its own ones, and everything else that is addressed to the
server.  `unlock` with no event is `CPU_NO_EVENT`. -/
inductive CpuEvent (E : Type)
  | freeCore
  | event
  | lock (m : Mode) (id : ℕ) (e : E)
  | unlock (m : Mode) (id : ℕ) (e : Option E)
  | user (e : E)
  deriving DecidableEq, Repr

/-- What is to happen once the CPU has done its part: nothing, a `CPU_EVENT` without delay
because a lock was not free, or the handler of an event. -/
inductive Dispatch (E : Type)
  | idle
  | wait
  | run (e : E)
  deriving DecidableEq, Repr

variable {E : Type}

def cpuBusy (cpu : CpuState E) : Bool := decide (cpu.cores ≤ cpu.busyCores)

def cpuBusyCoresDec (cpu : CpuState E) : Option (CpuState E) :=
  if 0 < cpu.busyCores then some { cpu with busyCores := cpu.busyCores - 1 } else none

def cpuBusyCoresInc (cpu : CpuState E) : Option (CpuState E) :=
  if cpu.busyCores < cpu.cores then some { cpu with busyCores := cpu.busyCores + 1 } else none

/-- `cpu_list_shift` on the queue of a lock, followed by `cpu_list_unshift` on the queue of the
CPU: the first waiter is the next to run. -/
def wakeFirst (cpu : CpuState E) (waiting : List (CpuListItem E)) : CpuState E :=
  match waiting with
  | [] => cpu
  | item :: _ => { cpu with queue := item :: cpu.queue }

/-! ## 2. Processing -/

/-- `cpu_process` for an event with a handler: a core is taken and the handler runs. -/
def cpuRun (cpu : CpuState E) (e : E) : Option (CpuState E × Dispatch E) :=
  (cpuBusyCoresInc cpu).map fun cpu => (cpu, .run e)

/-- `on_lock_lock`. -/
def onLockLock (cpu : CpuState E) (id : ℕ) (e : E) : Option (CpuState E × Dispatch E) := do
  let cpu ← cpuBusyCoresDec cpu
  let lock ← cpu.locks[id]?
  if lock.locked then
    let lock := { lock with queue := lock.queue ++ [.lock .mutex id e] }
    pure ({ cpu with locks := cpu.locks.set id lock }, .wait)
  else
    cpuRun { cpu with locks := cpu.locks.set id { lock with locked := true } } e

/-- `on_rwlock_read_lock`. -/
def onRwlockReadLock (cpu : CpuState E) (id : ℕ) (e : E) :
    Option (CpuState E × Dispatch E) := do
  let cpu ← cpuBusyCoresDec cpu
  let rwlock ← cpu.rwlocks[id]?
  if rwlock.writeLocked && rwlock.counter == 0 then
    let rwlock := { rwlock with queue := rwlock.queue ++ [.lock .read id e] }
    pure ({ cpu with rwlocks := cpu.rwlocks.set id rwlock }, .wait)
  else
    let counter := rwlock.counter + 1
    let writeLocked := if counter = 1 then true else rwlock.writeLocked
    let rwlock := { rwlock with counter := counter, writeLocked := writeLocked }
    cpuRun { cpu with rwlocks := cpu.rwlocks.set id rwlock } e

/-- `on_rwlock_write_lock`. -/
def onRwlockWriteLock (cpu : CpuState E) (id : ℕ) (e : E) :
    Option (CpuState E × Dispatch E) := do
  let cpu ← cpuBusyCoresDec cpu
  let rwlock ← cpu.rwlocks[id]?
  if rwlock.writeLocked then
    let rwlock := { rwlock with queue := rwlock.queue ++ [.lock .write id e] }
    pure ({ cpu with rwlocks := cpu.rwlocks.set id rwlock }, .wait)
  else
    cpuRun { cpu with rwlocks := cpu.rwlocks.set id { rwlock with writeLocked := true } } e

/-- The lock messages that ask for a lock. -/
def onLock (cpu : CpuState E) : Mode → ℕ → E → Option (CpuState E × Dispatch E)
  | .mutex => onLockLock cpu
  | .read => onRwlockReadLock cpu
  | .write => onRwlockWriteLock cpu

/-- `cpu_process` for something taken from a queue.  A lock message takes a core only to give
it back at once. -/
def cpuProcess (cpu : CpuState E) : CpuListItem E → Option (CpuState E × Dispatch E)
  | .event e => cpuRun cpu e
  | .lock m id e => do onLock (← cpuBusyCoresInc cpu) m id e

/-- `cpu_process_next_in_queue`. -/
def cpuProcessNextInQueue (cpu : CpuState E) : Option (CpuState E × Dispatch E) :=
  match cpu.queue with
  | [] => some (cpu, .idle)
  | item :: queue => cpuProcess { cpu with queue := queue } item

/-- `cpu_process` as the unlock messages call it, `none` being `CPU_NO_EVENT`. -/
def cpuContinue (cpu : CpuState E) : Option E → Option (CpuState E × Dispatch E)
  | none => cpuProcessNextInQueue cpu
  | some e => cpuRun cpu e

/-- `on_lock_unlock`. -/
def onLockUnlock (cpu : CpuState E) (id : ℕ) (e : Option E) :
    Option (CpuState E × Dispatch E) := do
  let cpu ← cpuBusyCoresDec cpu
  let lock ← cpu.locks[id]?
  guard lock.locked
  let cpu := { cpu with locks := cpu.locks.set id ⟨false, lock.queue.tail⟩ }
  cpuContinue (wakeFirst cpu lock.queue) e

/-- `on_rwlock_read_unlock`. -/
def onRwlockReadUnlock (cpu : CpuState E) (id : ℕ) (e : Option E) :
    Option (CpuState E × Dispatch E) := do
  let cpu ← cpuBusyCoresDec cpu
  let rwlock ← cpu.rwlocks[id]?
  guard (0 < rwlock.counter)
  if rwlock.counter - 1 = 0 then
    guard rwlock.writeLocked
    let cpu := { cpu with rwlocks := cpu.rwlocks.set id ⟨0, false, rwlock.queue.tail⟩ }
    cpuContinue (wakeFirst cpu rwlock.queue) e
  else
    let rwlock := { rwlock with counter := rwlock.counter - 1 }
    cpuContinue { cpu with rwlocks := cpu.rwlocks.set id rwlock } e

/-- `on_rwlock_write_unlock`. -/
def onRwlockWriteUnlock (cpu : CpuState E) (id : ℕ) (e : Option E) :
    Option (CpuState E × Dispatch E) := do
  let cpu ← cpuBusyCoresDec cpu
  let rwlock ← cpu.rwlocks[id]?
  guard (rwlock.counter = 0 ∨ rwlock.queue ≠ [])
  guard rwlock.writeLocked
  let cpu := { cpu with
    rwlocks := cpu.rwlocks.set id ⟨rwlock.counter, false, rwlock.queue.tail⟩ }
  cpuContinue (wakeFirst cpu rwlock.queue) e

/-- The lock messages that give a lock back. -/
def onUnlock (cpu : CpuState E) : Mode → ℕ → Option E → Option (CpuState E × Dispatch E)
  | .mutex => onLockUnlock cpu
  | .read => onRwlockReadUnlock cpu
  | .write => onRwlockWriteUnlock cpu

/-- `cpu_process_event`, up to the handler. -/
def cpuProcessEvent (cpu : CpuState E) : CpuEvent E → Option (CpuState E × Dispatch E)
  | .freeCore => do cpuProcessNextInQueue (← cpuBusyCoresDec cpu)
  | .event => if cpuBusy cpu then none else cpuProcessNextInQueue cpu
  | .lock m id e => onLock cpu m id e
  | .unlock m id e => onUnlock cpu m id e
  | .user e =>
    if cpuBusy cpu then some ({ cpu with queue := cpu.queue ++ [.event e] }, .idle)
    else cpuRun cpu e

/-! ## 3. What the CPU may do to its items and locks

`items` forgets the order in which items wait and at which queue, `table` keeps of the locks
only whether they are held.  In these terms a dispatch either changes nothing, or takes an event
that was waiting, or takes a lock message whose lock can be granted. -/

/-- Everything that waits in a queue of the CPU. -/
def CpuState.items (cpu : CpuState E) : Multiset (CpuListItem E) :=
  cpu.queue + (cpu.locks.map fun l => (l.queue : Multiset (CpuListItem E))).sum +
    (cpu.rwlocks.map fun l => (l.queue : Multiset (CpuListItem E))).sum

/-- The locks that are held. -/
def CpuState.table (cpu : CpuState E) : LockTable where
  mutex id := match cpu.locks[id]? with
    | some l => l.locked
    | none => false
  rw id := match cpu.rwlocks[id]? with
    | some l => (l.counter, l.writeLocked)
    | none => (0, false)

/-- What a dispatch may have done, given the locks and items it found. -/
inductive Dispatched (tb : LockTable) (pool : Multiset (CpuListItem E)) :
    Dispatch E → LockTable → Multiset (CpuListItem E) → Prop
  | stay (d : Dispatch E) (h : ∀ e, d ≠ .run e) : Dispatched tb pool d tb pool
  | event (e : E) (rest : Multiset (CpuListItem E)) (h : pool = .event e ::ₘ rest) :
      Dispatched tb pool (.run e) tb rest
  | lock (m : Mode) (id : ℕ) (e : E) (rest : Multiset (CpuListItem E)) (tb' : LockTable)
      (h : pool = .lock m id e ::ₘ rest) (hg : tb.grant? m id = some tb') :
      Dispatched tb pool (.run e) tb' rest

@[simp] theorem items_busyCores (cpu : CpuState E) (n : ℕ) :
    ({ cpu with busyCores := n } : CpuState E).items = cpu.items := rfl

@[simp] theorem table_busyCores (cpu : CpuState E) (n : ℕ) :
    ({ cpu with busyCores := n } : CpuState E).table = cpu.table := rfl

theorem cpuBusyCoresDec_some {cpu cpu' : CpuState E} (h : cpuBusyCoresDec cpu = some cpu') :
    cpu' = { cpu with busyCores := cpu'.busyCores } := by
  unfold cpuBusyCoresDec at h
  split at h <;> simp only [Option.some.injEq, reduceCtorEq] at h
  subst h; rfl

theorem cpuBusyCoresInc_some {cpu cpu' : CpuState E} (h : cpuBusyCoresInc cpu = some cpu') :
    cpu' = { cpu with busyCores := cpu'.busyCores } := by
  unfold cpuBusyCoresInc at h
  split at h <;> simp only [Option.some.injEq, reduceCtorEq] at h
  subst h; rfl

theorem cpuRun_some {cpu cpu' : CpuState E} {e : E} {d : Dispatch E}
    (h : cpuRun cpu e = some (cpu', d)) :
    cpu' = { cpu with busyCores := cpu'.busyCores } ∧ d = .run e := by
  simp only [cpuRun, Option.map_eq_some_iff, Prod.mk.injEq] at h
  obtain ⟨c, hc, rfl, rfl⟩ := h
  exact ⟨cpuBusyCoresInc_some hc, rfl⟩

/-- Replacing one element of a list replaces its part of the sum. -/
theorem sum_map_set {L α : Type} (f : L → Multiset α) :
    ∀ (l : List L) (i : ℕ) (a b : L), l[i]? = some a →
      ((l.set i b).map f).sum + f a = (l.map f).sum + f b
  | [], _, _, _, h => by simp at h
  | x :: l, 0, a, b, h => by
    simp only [List.getElem?_cons_zero, Option.some.injEq] at h
    subst h
    simp only [List.set_cons_zero, List.map_cons, List.sum_cons]
    rw [add_right_comm, add_comm (f b), add_right_comm]
  | x :: l, i + 1, a, b, h => by
    simp only [List.getElem?_cons_succ] at h
    have ih := sum_map_set f l i a b h
    simp only [List.set_cons_succ, List.map_cons, List.sum_cons]
    rw [add_assoc, ih, add_assoc]

theorem add_middle {M : Type} [AddCommMonoid M] {a b c d x y : M} (h : b + x = d + y) :
    a + b + c + x = a + d + c + y := by
  rw [add_right_comm, add_assoc a b x, h, ← add_assoc, add_right_comm]

/-- Replacing a lock replaces the items of its queue. -/
theorem items_setLock {cpu : CpuState E} {id : ℕ} {l : CpuLock E} (l' : CpuLock E)
    (h : cpu.locks[id]? = some l) :
    ({ cpu with locks := cpu.locks.set id l' } : CpuState E).items + l.queue =
      cpu.items + l'.queue := by
  have := sum_map_set (fun l : CpuLock E => (l.queue : Multiset (CpuListItem E))) _ _ _ l' h
  exact add_middle this

theorem items_setRwlock {cpu : CpuState E} {id : ℕ} {l : CpuRwlock E} (l' : CpuRwlock E)
    (h : cpu.rwlocks[id]? = some l) :
    ({ cpu with rwlocks := cpu.rwlocks.set id l' } : CpuState E).items + l.queue =
      cpu.items + l'.queue := by
  have := sum_map_set (fun l : CpuRwlock E => (l.queue : Multiset (CpuListItem E))) _ _ _ l' h
  simp only [CpuState.items]
  rw [add_assoc, this, ← add_assoc]

/-- A lock that keeps its queue keeps the items. -/
theorem items_keepLock {cpu : CpuState E} {id : ℕ} {l : CpuLock E} (l' : CpuLock E)
    (h : cpu.locks[id]? = some l) (hq : l'.queue = l.queue) :
    ({ cpu with locks := cpu.locks.set id l' } : CpuState E).items = cpu.items :=
  add_right_cancel (b := (l.queue : Multiset _)) (by rw [items_setLock l' h, hq])

theorem items_keepRwlock {cpu : CpuState E} {id : ℕ} {l : CpuRwlock E} (l' : CpuRwlock E)
    (h : cpu.rwlocks[id]? = some l) (hq : l'.queue = l.queue) :
    ({ cpu with rwlocks := cpu.rwlocks.set id l' } : CpuState E).items = cpu.items :=
  add_right_cancel (b := (l.queue : Multiset _)) (by rw [items_setRwlock l' h, hq])

/-- An item that joins the CPU queue. -/
theorem items_push (cpu : CpuState E) (x : CpuListItem E) :
    ({ cpu with queue := cpu.queue ++ [x] } : CpuState E).items = x ::ₘ cpu.items := by
  simp only [CpuState.items, ← Multiset.coe_add, Multiset.coe_singleton,
    ← Multiset.singleton_add]
  abel

/-- If the queue of a lock grows by one item, so do the items of the CPU. -/
theorem eq_cons_of_add_queue {a b : Multiset (CpuListItem E)} {q : List (CpuListItem E)}
    {x : CpuListItem E} (h : a + (q : Multiset _) = b + ((q ++ [x] : List _) : Multiset _)) :
    a = x ::ₘ b := by
  rw [← Multiset.coe_add, Multiset.coe_singleton, ← Multiset.singleton_add] at *
  exact add_right_cancel (h.trans (by abel))

theorem items_wakeFirst (cpu : CpuState E) (w : List (CpuListItem E)) :
    (wakeFirst cpu w).items + (w.tail : Multiset (CpuListItem E)) = cpu.items + w := by
  cases w with
  | nil => simp [wakeFirst]
  | cons x w =>
    simp only [wakeFirst, CpuState.items, List.tail_cons, ← Multiset.cons_coe,
      Multiset.cons_add, Multiset.add_cons]

@[simp] theorem table_wakeFirst (cpu : CpuState E) (w : List (CpuListItem E)) :
    (wakeFirst cpu w).table = cpu.table := by
  cases w <;> rfl

theorem table_setLock {cpu : CpuState E} {id : ℕ} {l : CpuLock E} (l' : CpuLock E)
    (h : cpu.locks[id]? = some l) :
    ({ cpu with locks := cpu.locks.set id l' } : CpuState E).table =
      { cpu.table with mutex := Function.update cpu.table.mutex id l'.locked } := by
  have hlt := (List.getElem?_eq_some_iff.mp h).1
  simp only [CpuState.table, LockTable.mk.injEq, and_true]
  funext i
  by_cases hi : i = id
  · subst hi; simp [hlt]
  · simp [List.getElem?_set_ne (Ne.symm hi), hi]

theorem table_setRwlock {cpu : CpuState E} {id : ℕ} {l : CpuRwlock E} (l' : CpuRwlock E)
    (h : cpu.rwlocks[id]? = some l) :
    ({ cpu with rwlocks := cpu.rwlocks.set id l' } : CpuState E).table =
      { cpu.table with rw := Function.update cpu.table.rw id (l'.counter, l'.writeLocked) } := by
  have hlt := (List.getElem?_eq_some_iff.mp h).1
  simp only [CpuState.table, LockTable.mk.injEq, true_and]
  funext i
  by_cases hi : i = id
  · subst hi; simp [hlt]
  · simp [List.getElem?_set_ne (Ne.symm hi), hi]

theorem table_mutex {cpu : CpuState E} {id : ℕ} {l : CpuLock E} (h : cpu.locks[id]? = some l) :
    cpu.table.mutex id = l.locked := by simp [CpuState.table, h]

theorem table_rw {cpu : CpuState E} {id : ℕ} {l : CpuRwlock E} (h : cpu.rwlocks[id]? = some l) :
    cpu.table.rw id = (l.counter, l.writeLocked) := by simp [CpuState.table, h]

/-! ### One lemma for each kind of message -/

/-- A lock message that has to wait moves to the queue of its mutex. -/
theorem wait_lock {cpu : CpuState E} {id : ℕ} {l : CpuLock E} (x : CpuListItem E)
    (h : cpu.locks[id]? = some l) :
    let cpu' := { cpu with locks := cpu.locks.set id { l with queue := l.queue ++ [x] } }
    cpu'.items = x ::ₘ cpu.items ∧ cpu'.table = cpu.table := by
  refine ⟨eq_cons_of_add_queue (items_setLock _ h), ?_⟩
  rw [table_setLock _ h, ← table_mutex h, Function.update_eq_self]

theorem wait_rwlock {cpu : CpuState E} {id : ℕ} {l : CpuRwlock E} (x : CpuListItem E)
    (h : cpu.rwlocks[id]? = some l) :
    let cpu' := { cpu with rwlocks := cpu.rwlocks.set id { l with queue := l.queue ++ [x] } }
    cpu'.items = x ::ₘ cpu.items ∧ cpu'.table = cpu.table := by
  refine ⟨eq_cons_of_add_queue (items_setRwlock _ h), ?_⟩
  rw [table_setRwlock _ h]
  simp only [← table_rw h, Function.update_eq_self]

/-- A handler that runs leaves the CPU but for the count of busy cores. -/
theorem cpuRun_dispatched {cpu cpu' : CpuState E} {e : E} {d : Dispatch E} {tb : LockTable}
    {m : Mode} {id : ℕ} {rest : Multiset (CpuListItem E)} (h : cpuRun cpu e = some (cpu', d))
    (hg : tb.grant? m id = some cpu.table) (hi : cpu.items = rest) :
    Dispatched tb (.lock m id e ::ₘ rest) d cpu'.table cpu'.items := by
  obtain ⟨hcpu, rfl⟩ := cpuRun_some h
  rw [hcpu, table_busyCores, items_busyCores, hi]
  exact .lock m id e _ _ rfl hg

theorem onLock_dispatched {cpu cpu' : CpuState E} {m : Mode} {id : ℕ} {e : E} {d : Dispatch E}
    (h : onLock cpu m id e = some (cpu', d)) :
    Dispatched cpu.table (.lock m id e ::ₘ cpu.items) d cpu'.table cpu'.items := by
  cases m with
  | mutex =>
    simp only [onLock, onLockLock, Option.bind_eq_bind, Option.bind_eq_some_iff] at h
    obtain ⟨c, hc, l, hl, h⟩ := h
    have hce := cpuBusyCoresDec_some hc
    have htb : cpu.table = c.table := by rw [hce]; rfl
    have hit : cpu.items = c.items := by rw [hce]; rfl
    rw [htb, hit]
    split at h
    · simp only [Option.pure_def, Option.some.injEq, Prod.mk.injEq] at h
      obtain ⟨rfl, rfl⟩ := h
      obtain ⟨hi, ht⟩ := wait_lock (.lock .mutex id e) hl
      rw [← hi, ← ht]
      exact .stay _ (by simp)
    · rename_i hfree
      refine cpuRun_dispatched h ?_ (items_keepLock _ hl rfl)
      rw [table_setLock _ hl, LockTable.grant?, table_mutex hl, if_neg hfree]
  | read =>
    simp only [onLock, onRwlockReadLock, Option.bind_eq_bind, Option.bind_eq_some_iff] at h
    obtain ⟨c, hc, l, hl, h⟩ := h
    have hce := cpuBusyCoresDec_some hc
    have htb : cpu.table = c.table := by rw [hce]; rfl
    have hit : cpu.items = c.items := by rw [hce]; rfl
    rw [htb, hit]
    split at h
    · simp only [Option.pure_def, Option.some.injEq, Prod.mk.injEq] at h
      obtain ⟨rfl, rfl⟩ := h
      obtain ⟨hi, ht⟩ := wait_rwlock (.lock .read id e) hl
      rw [← hi, ← ht]
      exact .stay _ (by simp)
    · rename_i hfree
      refine cpuRun_dispatched h ?_ (items_keepRwlock _ hl rfl)
      rw [table_setRwlock _ hl, LockTable.grant?, table_rw hl, if_neg hfree]
  | write =>
    simp only [onLock, onRwlockWriteLock, Option.bind_eq_bind, Option.bind_eq_some_iff] at h
    obtain ⟨c, hc, l, hl, h⟩ := h
    have hce := cpuBusyCoresDec_some hc
    have htb : cpu.table = c.table := by rw [hce]; rfl
    have hit : cpu.items = c.items := by rw [hce]; rfl
    rw [htb, hit]
    split at h
    · simp only [Option.pure_def, Option.some.injEq, Prod.mk.injEq] at h
      obtain ⟨rfl, rfl⟩ := h
      obtain ⟨hi, ht⟩ := wait_rwlock (.lock .write id e) hl
      rw [← hi, ← ht]
      exact .stay _ (by simp)
    · rename_i hfree
      refine cpuRun_dispatched h ?_ (items_keepRwlock _ hl rfl)
      rw [table_setRwlock _ hl, LockTable.grant?, table_rw hl, if_neg hfree]

theorem cpuProcess_dispatched {cpu cpu' : CpuState E} {item : CpuListItem E} {d : Dispatch E}
    (h : cpuProcess cpu item = some (cpu', d)) :
    Dispatched cpu.table (item ::ₘ cpu.items) d cpu'.table cpu'.items := by
  cases item with
  | event e =>
    obtain ⟨hcpu, rfl⟩ := cpuRun_some h
    rw [hcpu]
    exact .event e _ rfl
  | lock m id e =>
    simp only [cpuProcess, Option.bind_eq_bind, Option.bind_eq_some_iff] at h
    obtain ⟨c, hc, h⟩ := h
    have := onLock_dispatched h
    rw [cpuBusyCoresInc_some hc] at this
    exact this

theorem cpuProcessNextInQueue_dispatched {cpu cpu' : CpuState E} {d : Dispatch E}
    (h : cpuProcessNextInQueue cpu = some (cpu', d)) :
    Dispatched cpu.table cpu.items d cpu'.table cpu'.items := by
  unfold cpuProcessNextInQueue at h
  split at h
  · simp only [Option.some.injEq, Prod.mk.injEq] at h
    obtain ⟨rfl, rfl⟩ := h
    exact .stay _ (by simp)
  · rename_i item queue hq
    have hi : cpu.items = item ::ₘ ({ cpu with queue := queue } : CpuState E).items := by
      simp only [CpuState.items, hq, ← Multiset.cons_coe, Multiset.cons_add]
    rw [hi]
    exact cpuProcess_dispatched h

/-- Once the lock of an unlock message is given back, its event runs, or, if there is none,
whatever is next. -/
theorem cpuContinue_dispatched {cpu cpu' : CpuState E} {e : Option E} {d : Dispatch E}
    (h : cpuContinue cpu e = some (cpu', d)) :
    (e = none ∧ Dispatched cpu.table cpu.items d cpu'.table cpu'.items) ∨
      ∃ e', e = some e' ∧ d = .run e' ∧ cpu'.table = cpu.table ∧ cpu'.items = cpu.items := by
  cases e with
  | none => exact .inl ⟨rfl, cpuProcessNextInQueue_dispatched h⟩
  | some e =>
    obtain ⟨hcpu, rfl⟩ := cpuRun_some h
    exact .inr ⟨e, rfl, rfl, by rw [hcpu]; rfl, by rw [hcpu]; rfl⟩

/-- The first waiter of a lock moves to the CPU queue, so the items stay the same. -/
theorem items_wake_lock {cpu : CpuState E} {id : ℕ} {l : CpuLock E} (b : Bool)
    (h : cpu.locks[id]? = some l) :
    (wakeFirst { cpu with locks := cpu.locks.set id ⟨b, l.queue.tail⟩ } l.queue).items =
      cpu.items := by
  have h1 := items_wakeFirst { cpu with locks := cpu.locks.set id ⟨b, l.queue.tail⟩ } l.queue
  rw [items_setLock _ h] at h1
  exact add_right_cancel h1

theorem items_wake_rwlock {cpu : CpuState E} {id : ℕ} {l : CpuRwlock E} (n : ℕ) (b : Bool)
    (h : cpu.rwlocks[id]? = some l) :
    (wakeFirst { cpu with rwlocks := cpu.rwlocks.set id ⟨n, b, l.queue.tail⟩ } l.queue).items =
      cpu.items := by
  have h1 := items_wakeFirst { cpu with rwlocks := cpu.rwlocks.set id ⟨n, b, l.queue.tail⟩ }
    l.queue
  rw [items_setRwlock _ h] at h1
  exact add_right_cancel h1

/-- An unlock message gives its lock back before anything else happens. -/
theorem onUnlock_released {cpu cpu' : CpuState E} {m : Mode} {id : ℕ} {e : Option E}
    {d : Dispatch E} (h : onUnlock cpu m id e = some (cpu', d)) :
    ∃ c : CpuState E, cpu.table.release? m id = some c.table ∧ c.items = cpu.items ∧
      cpuContinue c e = some (cpu', d) := by
  cases m with
  | mutex =>
    simp only [onUnlock, onLockUnlock, Option.bind_eq_bind, Option.bind_eq_some_iff] at h
    obtain ⟨c, hc, l, hl, _, hg, h⟩ := h
    have hce := cpuBusyCoresDec_some hc
    have htb : cpu.table = c.table := by rw [hce]; rfl
    have hit : cpu.items = c.items := by rw [hce]; rfl
    refine ⟨_, ?_, (items_wake_lock _ hl).trans hit.symm, h⟩
    simp only [Option.guard_eq_some', ] at hg
    rw [htb, LockTable.release?, table_mutex hl, if_pos hg, table_wakeFirst, table_setLock _ hl]
  | read =>
    simp only [onUnlock, onRwlockReadUnlock, Option.bind_eq_bind, Option.bind_eq_some_iff] at h
    obtain ⟨c, hc, l, hl, _, hg, h⟩ := h
    have hce := cpuBusyCoresDec_some hc
    have htb : cpu.table = c.table := by rw [hce]; rfl
    have hit : cpu.items = c.items := by rw [hce]; rfl
    simp only [Option.guard_eq_some'] at hg
    have hne : l.counter ≠ 0 := by omega
    split at h
    · rename_i h0
      simp only [Option.bind_eq_some_iff, Option.guard_eq_some'] at h
      obtain ⟨_, hw, h⟩ := h
      refine ⟨_, ?_, (items_wake_rwlock _ _ hl).trans hit.symm, h⟩
      rw [htb, table_wakeFirst, table_setRwlock _ hl, LockTable.release?, table_rw hl]
      simp [hne, h0, hw]
    · rename_i h0
      refine ⟨{ c with rwlocks := c.rwlocks.set id { l with counter := l.counter - 1 } }, ?_,
        (items_keepRwlock _ hl (by rfl)).trans hit.symm, h⟩
      rw [htb, table_setRwlock _ hl, LockTable.release?, table_rw hl]
      simp [hne, h0]
  | write =>
    simp only [onUnlock, onRwlockWriteUnlock, Option.bind_eq_bind, Option.bind_eq_some_iff] at h
    obtain ⟨c, hc, l, hl, _, -, _, hw, h⟩ := h
    have hce := cpuBusyCoresDec_some hc
    have htb : cpu.table = c.table := by rw [hce]; rfl
    have hit : cpu.items = c.items := by rw [hce]; rfl
    simp only [Option.guard_eq_some'] at hw
    refine ⟨_, ?_, (items_wake_rwlock _ _ hl).trans hit.symm, h⟩
    rw [htb, table_wakeFirst, table_setRwlock _ hl, LockTable.release?, table_rw hl]
    simp [hw]

end CCSim
