/-
# What one event does to a CPU

`cpuProcessEvent` and the functions it calls give a core back, release a lock, take an item from
the queue, ask for a lock and take a core, in an order that depends on the event.  This file puts
all of it into one statement (`cpuProcessEvent_processed`): first the event gives back its core
and its lock (`Freed`); then the CPU goes on with what the event brings or, if it brings nothing,
with the head of the queue, which either runs or waits at its lock (`Took`).  An event that
arrives at a busy CPU is only queued.  Every invariant of the CPU is derived from this statement.

The last section is about assertions.  Those on the number of busy cores never fail on their own:
if the core of the event is accounted for and its lock is there, the CPU can process it.
-/
import CCSim.Cpu

namespace CCSim

variable {E : Type}

/-! ## 1. Events and queues -/

/-- The number of cores an event holds while it is pending. -/
def CpuEvent.cores : CpuEvent E → ℕ
  | .freeCore => 1
  | .lock _ _ _ => 1
  | .unlock _ _ _ => 1
  | .event => 0
  | .user _ => 0

/-- The number of cores a dispatch takes. -/
def Dispatch.cores : Dispatch E → ℕ
  | .idle => 0
  | .wait => 0
  | .run _ => 1

/-- What an event brings to the CPU; without anything, the CPU takes what is next. -/
def CpuEvent.own : CpuEvent E → Option (CpuListItem E)
  | .freeCore => none
  | .event => none
  | .lock m id e => some (.lock m id e)
  | .unlock _ _ e => e.map .event
  | .user e => some (.event e)

/-- What waits at a lock. -/
def CpuState.waiting (cpu : CpuState E) : Mode → ℕ → List (CpuListItem E)
  | .mutex, id => (cpu.locks[id]?.map CpuLock.queue).getD []
  | .read, id => (cpu.rwlocks[id]?.map CpuRwlock.queue).getD []
  | .write, id => (cpu.rwlocks[id]?.map CpuRwlock.queue).getD []

/-- The waiter that an unlock message moves to the CPU queue: the last reader, a writer and the
holder of a mutex wake one. -/
def CpuState.waiter (cpu : CpuState E) : Mode → ℕ → Option (CpuListItem E)
  | .mutex, id => (cpu.waiting .mutex id).head?
  | .read, id => if (cpu.table.rw id).1 = 1 then (cpu.waiting .read id).head? else none
  | .write, id => (cpu.waiting .write id).head?

/-- The CPU queue once the lock of the event, if it gives one back, has woken its waiter. -/
def CpuState.line (cpu : CpuState E) : CpuEvent E → List (CpuListItem E)
  | .unlock m id _ => (cpu.waiter m id).toList ++ cpu.queue
  | _ => cpu.queue

/-- `get_lock` and `get_rwlock` find the lock. -/
def CpuState.HasLock (cpu : CpuState E) : Mode → ℕ → Prop
  | .mutex, id => id < cpu.locks.length
  | .read, id => id < cpu.rwlocks.length
  | .write, id => id < cpu.rwlocks.length

/-- Both modes ask for a mutex, or both for a read-write lock. -/
def Mode.Same (m m' : Mode) : Prop := m = .mutex ↔ m' = .mutex

instance (m m' : Mode) : Decidable (m.Same m') := inferInstanceAs (Decidable (_ ↔ _))

/-! ## 2. The two halves of an event -/

/-- `c` is `cpu` after `ev` gave back its core and its lock. -/
structure Freed (cpu : CpuState E) (ev : CpuEvent E) (c : CpuState E) : Prop where
  cores : c.cores = cpu.cores
  busy : c.busyCores + ev.cores = cpu.busyCores
  queue : c.queue = cpu.line ev
  has : c.HasLock = cpu.HasLock
  items : c.items = cpu.items
  table : match ev with
    | .unlock m id _ => cpu.table.release? m id = some c.table
    | _ => c.table = cpu.table
  woken : ∀ {m id e m'}, ev = .unlock m id e → m.Same m' →
    cpu.waiting m' id = (cpu.waiter m id).toList ++ c.waiting m' id
  kept : ∀ {m' i}, (∀ m e, ev = .unlock m i e → ¬m.Same m') → c.waiting m' i = cpu.waiting m' i

/-- The CPU went on with an item: it runs its event, with the lock it asks for, or makes it wait
at that lock. -/
inductive Took (c : CpuState E) : CpuListItem E → CpuState E → Dispatch E → Prop
  | event (e : E) (hfree : c.busyCores < c.cores) :
      Took c (.event e) { c with busyCores := c.busyCores + 1 } (.run e)
  | granted {m : Mode} {id : ℕ} {e : E} {cpu' : CpuState E} (hfree : c.busyCores < c.cores)
      (hlock : c.HasLock m id) (hgrant : c.table.grant? m id = some cpu'.table)
      (hcpu : cpu' = { c with
        busyCores := c.busyCores + 1, locks := cpu'.locks, rwlocks := cpu'.rwlocks })
      (hhas : cpu'.HasLock = c.HasLock) (hitems : cpu'.items = c.items)
      (hwaiting : cpu'.waiting = c.waiting) :
      Took c (.lock m id e) cpu' (.run e)
  | blocked {m : Mode} {id : ℕ} {e : E} {cpu' : CpuState E} (hlock : c.HasLock m id)
      (hgrant : c.table.grant? m id = none) (htable : cpu'.table = c.table)
      (hcpu : cpu' = { c with locks := cpu'.locks, rwlocks := cpu'.rwlocks })
      (hhas : cpu'.HasLock = c.HasLock) (hitems : cpu'.items = .lock m id e ::ₘ c.items)
      (hwaiting : ∀ m' i, cpu'.waiting m' i =
        c.waiting m' i ++ if m.Same m' ∧ i = id then [.lock m id e] else []) :
      Took c (.lock m id e) cpu' .wait

/-- **What one event does to a CPU.** -/
inductive Processed (cpu : CpuState E) (ev : CpuEvent E) : CpuState E → Dispatch E → Prop
  | queued (e : E) (hev : ev = .user e) (hbusy : cpu.cores ≤ cpu.busyCores) :
      Processed cpu ev { cpu with queue := cpu.queue ++ [.event e] } .idle
  | idle {c : CpuState E} (hc : Freed cpu ev c) (hown : ev.own = none) (hqueue : c.queue = []) :
      Processed cpu ev c .idle
  | own {c cpu' : CpuState E} {x : CpuListItem E} {d : Dispatch E} (hc : Freed cpu ev c)
      (hown : ev.own = some x) (hx : Took c x cpu' d) : Processed cpu ev cpu' d
  | next {c cpu' : CpuState E} {x : CpuListItem E} {q : List (CpuListItem E)} {d : Dispatch E}
      (hc : Freed cpu ev c) (hown : ev.own = none) (hqueue : c.queue = x :: q)
      (hx : Took { c with queue := q } x cpu' d) : Processed cpu ev cpu' d

/-! ## 3. Asking for a lock -/

theorem cpuBusyCoresDec_eq {cpu c : CpuState E} (h : cpuBusyCoresDec cpu = some c) :
    0 < cpu.busyCores ∧ c = { cpu with busyCores := cpu.busyCores - 1 } := by
  unfold cpuBusyCoresDec at h
  split at h <;> simp only [Option.some.injEq, reduceCtorEq] at h
  rename_i hpos
  exact ⟨hpos, h.symm⟩

theorem cpuBusyCoresInc_eq {cpu c : CpuState E} (h : cpuBusyCoresInc cpu = some c) :
    cpu.busyCores < cpu.cores ∧ c = { cpu with busyCores := cpu.busyCores + 1 } := by
  unfold cpuBusyCoresInc at h
  split at h <;> simp only [Option.some.injEq, reduceCtorEq] at h
  rename_i hlt
  exact ⟨hlt, h.symm⟩

theorem cpuRun_eq {cpu cpu' : CpuState E} {e : E} {d : Dispatch E}
    (h : cpuRun cpu e = some (cpu', d)) :
    cpu.busyCores < cpu.cores ∧ cpu' = { cpu with busyCores := cpu.busyCores + 1 } ∧
      d = .run e := by
  simp only [cpuRun, Option.map_eq_some_iff, Prod.mk.injEq] at h
  obtain ⟨c, hc, rfl, rfl⟩ := h
  obtain ⟨hlt, rfl⟩ := cpuBusyCoresInc_eq hc
  exact ⟨hlt, rfl, rfl⟩

@[simp] theorem waiting_busyCores (cpu : CpuState E) (n : ℕ) :
    ({ cpu with busyCores := n } : CpuState E).waiting = cpu.waiting := by
  funext m id
  cases m <;> rfl

@[simp] theorem hasLock_busyCores (cpu : CpuState E) (n : ℕ) :
    ({ cpu with busyCores := n } : CpuState E).HasLock = cpu.HasLock := by
  funext m id
  cases m <;> rfl

@[simp] theorem waiting_queue (cpu : CpuState E) (q : List (CpuListItem E)) :
    ({ cpu with queue := q } : CpuState E).waiting = cpu.waiting := by
  funext m id
  cases m <;> rfl

@[simp] theorem table_queue (cpu : CpuState E) (q : List (CpuListItem E)) :
    ({ cpu with queue := q } : CpuState E).table = cpu.table := rfl

@[simp] theorem hasLock_queue (cpu : CpuState E) (q : List (CpuListItem E)) :
    ({ cpu with queue := q } : CpuState E).HasLock = cpu.HasLock := by
  funext m id
  cases m <;> rfl

/-- Replacing a lock creates none and destroys none. -/
theorem hasLock_setLock (cpu : CpuState E) (id : ℕ) (l : CpuLock E) :
    ({ cpu with locks := cpu.locks.set id l } : CpuState E).HasLock = cpu.HasLock := by
  funext m i
  cases m <;> simp [CpuState.HasLock]

theorem hasLock_setRwlock (cpu : CpuState E) (id : ℕ) (l : CpuRwlock E) :
    ({ cpu with rwlocks := cpu.rwlocks.set id l } : CpuState E).HasLock = cpu.HasLock := by
  funext m i
  cases m <;> simp [CpuState.HasLock]

/-- Replacing a mutex replaces its queue. -/
theorem waiting_setLock {cpu : CpuState E} {id : ℕ} {l : CpuLock E} (l' : CpuLock E)
    (h : cpu.locks[id]? = some l) (m : Mode) (i : ℕ) :
    ({ cpu with locks := cpu.locks.set id l' } : CpuState E).waiting m i =
      if m = .mutex ∧ i = id then l'.queue else cpu.waiting m i := by
  have hlt := (List.getElem?_eq_some_iff.mp h).1
  cases m with
  | mutex =>
    by_cases hi : i = id
    · subst hi
      simp [CpuState.waiting, hlt]
    · simp [CpuState.waiting, List.getElem?_set_ne (Ne.symm hi), hi]
  | read => simp [CpuState.waiting]
  | write => simp [CpuState.waiting]

theorem waiting_setRwlock {cpu : CpuState E} {id : ℕ} {l : CpuRwlock E} (l' : CpuRwlock E)
    (h : cpu.rwlocks[id]? = some l) (m : Mode) (i : ℕ) :
    ({ cpu with rwlocks := cpu.rwlocks.set id l' } : CpuState E).waiting m i =
      if m ≠ .mutex ∧ i = id then l'.queue else cpu.waiting m i := by
  have hlt := (List.getElem?_eq_some_iff.mp h).1
  by_cases hi : i = id
  · subst hi
    cases m <;> simp [CpuState.waiting, hlt]
  · cases m <;> simp [CpuState.waiting, List.getElem?_set_ne (Ne.symm hi), hi]

theorem waiting_of_lock {cpu : CpuState E} {id : ℕ} {l : CpuLock E}
    (h : cpu.locks[id]? = some l) : cpu.waiting .mutex id = l.queue := by
  simp [CpuState.waiting, h]

theorem waiting_of_rwlock {cpu : CpuState E} {id : ℕ} {l : CpuRwlock E}
    (h : cpu.rwlocks[id]? = some l) {m : Mode} (hm : m ≠ .mutex) : cpu.waiting m id = l.queue := by
  cases m with
  | mutex => exact absurd rfl hm
  | read => simp [CpuState.waiting, h]
  | write => simp [CpuState.waiting, h]

/-- A lock that keeps its queue keeps who waits. -/
theorem waiting_keepLock {cpu : CpuState E} {id : ℕ} {l : CpuLock E} (l' : CpuLock E)
    (h : cpu.locks[id]? = some l) (hq : l'.queue = l.queue) :
    ({ cpu with locks := cpu.locks.set id l' } : CpuState E).waiting = cpu.waiting := by
  funext m i
  rw [waiting_setLock _ h]
  split <;> rename_i hi
  · rw [hi.1, hi.2, waiting_of_lock h, hq]
  · rfl

theorem waiting_keepRwlock {cpu : CpuState E} {id : ℕ} {l : CpuRwlock E} (l' : CpuRwlock E)
    (h : cpu.rwlocks[id]? = some l) (hq : l'.queue = l.queue) :
    ({ cpu with rwlocks := cpu.rwlocks.set id l' } : CpuState E).waiting = cpu.waiting := by
  funext m i
  rw [waiting_setRwlock _ h]
  split <;> rename_i hi
  · rw [hi.2, waiting_of_rwlock h hi.1, hq]
  · rfl

/-- A lock message that has to wait goes to the end of the queue of its lock. -/
theorem waiting_pushLock {cpu : CpuState E} {id : ℕ} {l : CpuLock E} (x : CpuListItem E)
    (h : cpu.locks[id]? = some l) (m' : Mode) (i : ℕ) :
    ({ cpu with locks := cpu.locks.set id { l with queue := l.queue ++ [x] } } :
        CpuState E).waiting m' i =
      cpu.waiting m' i ++ if Mode.mutex.Same m' ∧ i = id then [x] else [] := by
  have hsame : Mode.mutex.Same m' ↔ m' = .mutex := by simp [Mode.Same]
  rw [waiting_setLock _ h]
  simp only [hsame]
  split <;> rename_i hi
  · rw [hi.1, hi.2, waiting_of_lock h]
  · rw [List.append_nil]

theorem waiting_pushRwlock {cpu : CpuState E} {id : ℕ} {l : CpuRwlock E} (x : CpuListItem E)
    (h : cpu.rwlocks[id]? = some l) {m : Mode} (hm : m ≠ .mutex) (m' : Mode) (i : ℕ) :
    ({ cpu with rwlocks := cpu.rwlocks.set id { l with queue := l.queue ++ [x] } } :
        CpuState E).waiting m' i =
      cpu.waiting m' i ++ if m.Same m' ∧ i = id then [x] else [] := by
  have hsame : m.Same m' ↔ m' ≠ .mutex := by simp [Mode.Same, hm]
  rw [waiting_setRwlock _ h]
  simp only [hsame]
  split <;> rename_i hi
  · rw [hi.2, waiting_of_rwlock h hi.1]
  · rw [List.append_nil]

/-- A lock message asks for a lock without a core of its own. -/
theorem onLock_took {cpu cpu' : CpuState E} {m : Mode} {id : ℕ} {e : E} {d : Dispatch E}
    (h : onLock cpu m id e = some (cpu', d)) :
    0 < cpu.busyCores ∧
      Took { cpu with busyCores := cpu.busyCores - 1 } (.lock m id e) cpu' d := by
  cases m with
  | mutex =>
    simp only [onLock, onLockLock, Option.bind_eq_bind, Option.bind_eq_some_iff] at h
    obtain ⟨c, hc, l, hl, h⟩ := h
    obtain ⟨hpos, hce⟩ := cpuBusyCoresDec_eq hc
    refine ⟨hpos, ?_⟩
    rw [← hce]
    have hhas := (List.getElem?_eq_some_iff.mp hl).1
    split at h <;> rename_i hlocked
    · simp only [Option.pure_def, Option.some.injEq, Prod.mk.injEq] at h
      obtain ⟨rfl, rfl⟩ := h
      obtain ⟨hi, ht⟩ := wait_lock (.lock .mutex id e) hl
      refine .blocked hhas ?_ ht rfl (hasLock_setLock _ _ _) hi (waiting_pushLock _ hl)
      rw [LockTable.grant?, table_mutex hl, if_pos hlocked]
    · obtain ⟨hlt, rfl, rfl⟩ := cpuRun_eq h
      set l' : CpuLock E := ⟨true, l.queue⟩
      refine .granted hlt hhas ?_ rfl (hasLock_setLock c id l') (items_keepLock l' hl rfl) ?_
      · rw [LockTable.grant?, table_mutex hl, if_neg hlocked]
        exact congrArg some (table_setLock l' hl).symm
      · rw [waiting_busyCores]
        exact waiting_keepLock l' hl rfl
  | read =>
    simp only [onLock, onRwlockReadLock, Option.bind_eq_bind, Option.bind_eq_some_iff] at h
    obtain ⟨c, hc, l, hl, h⟩ := h
    obtain ⟨hpos, hce⟩ := cpuBusyCoresDec_eq hc
    refine ⟨hpos, ?_⟩
    rw [← hce]
    have hhas := (List.getElem?_eq_some_iff.mp hl).1
    split at h <;> rename_i hlocked
    · simp only [Option.pure_def, Option.some.injEq, Prod.mk.injEq] at h
      obtain ⟨rfl, rfl⟩ := h
      obtain ⟨hi, ht⟩ := wait_rwlock (.lock .read id e) hl
      refine .blocked hhas ?_ ht rfl (hasLock_setRwlock _ _ _) hi
        (waiting_pushRwlock _ hl (by simp))
      rw [LockTable.grant?, table_rw hl, if_pos hlocked]
    · obtain ⟨hlt, rfl, rfl⟩ := cpuRun_eq h
      set l' : CpuRwlock E :=
        ⟨l.counter + 1, if l.counter + 1 = 1 then true else l.writeLocked, l.queue⟩
      refine .granted hlt hhas ?_ rfl (hasLock_setRwlock c id l') (items_keepRwlock l' hl rfl)
        ?_
      · rw [LockTable.grant?, table_rw hl, if_neg hlocked]
        exact congrArg some (table_setRwlock l' hl).symm
      · rw [waiting_busyCores]
        exact waiting_keepRwlock l' hl rfl
  | write =>
    simp only [onLock, onRwlockWriteLock, Option.bind_eq_bind, Option.bind_eq_some_iff] at h
    obtain ⟨c, hc, l, hl, h⟩ := h
    obtain ⟨hpos, hce⟩ := cpuBusyCoresDec_eq hc
    refine ⟨hpos, ?_⟩
    rw [← hce]
    have hhas := (List.getElem?_eq_some_iff.mp hl).1
    split at h <;> rename_i hlocked
    · simp only [Option.pure_def, Option.some.injEq, Prod.mk.injEq] at h
      obtain ⟨rfl, rfl⟩ := h
      obtain ⟨hi, ht⟩ := wait_rwlock (.lock .write id e) hl
      refine .blocked hhas ?_ ht rfl (hasLock_setRwlock _ _ _) hi
        (waiting_pushRwlock _ hl (by simp))
      rw [LockTable.grant?, table_rw hl, if_pos hlocked]
    · obtain ⟨hlt, rfl, rfl⟩ := cpuRun_eq h
      set l' : CpuRwlock E := ⟨l.counter, true, l.queue⟩
      refine .granted hlt hhas ?_ rfl (hasLock_setRwlock c id l') (items_keepRwlock l' hl rfl)
        ?_
      · rw [LockTable.grant?, table_rw hl, if_neg hlocked]
        exact congrArg some (table_setRwlock l' hl).symm
      · rw [waiting_busyCores]
        exact waiting_keepRwlock l' hl rfl

/-- An item of the queue goes on from a CPU with a free core. -/
theorem cpuProcess_took {c cpu' : CpuState E} {x : CpuListItem E} {d : Dispatch E}
    (h : cpuProcess c x = some (cpu', d)) : Took c x cpu' d := by
  cases x with
  | event e =>
    obtain ⟨hlt, rfl, rfl⟩ := cpuRun_eq h
    exact .event e hlt
  | lock m id e =>
    simp only [cpuProcess, Option.bind_eq_bind, Option.bind_eq_some_iff] at h
    obtain ⟨c', hc, h⟩ := h
    obtain ⟨-, rfl⟩ := cpuBusyCoresInc_eq hc
    exact (onLock_took h).2

/-! ## 4. Giving a lock back -/

/-- The first of those who wait, and the rest. -/
theorem eq_head?_append_tail {α : Type} (w : List α) : w = w.head?.toList ++ w.tail := by
  cases w <;> rfl

section WakeFirst

variable (cpu : CpuState E) (w : List (CpuListItem E))

@[simp] theorem queue_wakeFirst : (wakeFirst cpu w).queue = w.head?.toList ++ cpu.queue := by
  cases w <;> rfl

@[simp] theorem cores_wakeFirst : (wakeFirst cpu w).cores = cpu.cores := by
  cases w <;> rfl

@[simp] theorem busyCores_wakeFirst : (wakeFirst cpu w).busyCores = cpu.busyCores := by
  cases w <;> rfl

@[simp] theorem waiting_wakeFirst : (wakeFirst cpu w).waiting = cpu.waiting := by
  cases w
  · rfl
  · exact waiting_queue _ _

@[simp] theorem hasLock_wakeFirst : (wakeFirst cpu w).HasLock = cpu.HasLock := by
  cases w
  · rfl
  · exact hasLock_queue _ _

end WakeFirst

/-- What the unlock messages assert of the lock they give back. -/
def CpuState.MayRelease (cpu : CpuState E) : Mode → ℕ → Prop
  | .mutex, id => ∃ l, cpu.locks[id]? = some l ∧ l.locked = true
  | .read, id => ∃ l, cpu.rwlocks[id]? = some l ∧ 0 < l.counter ∧
      (l.counter = 1 → l.writeLocked = true)
  | .write, id => ∃ l, cpu.rwlocks[id]? = some l ∧ (l.counter = 0 ∨ l.queue ≠ []) ∧
      l.writeLocked = true

/-- An unlock message whose assertions hold gives back its core and its lock, and then goes on. -/
theorem onUnlock_freed {cpu : CpuState E} {m : Mode} {id : ℕ} (e : Option E)
    (hpos : 0 < cpu.busyCores) (hmay : cpu.MayRelease m id) :
    ∃ c : CpuState E, Freed cpu (.unlock m id e) c ∧ onUnlock cpu m id e = cpuContinue c e := by
  set c : CpuState E := { cpu with busyCores := cpu.busyCores - 1 } with hce
  have hc : cpuBusyCoresDec cpu = some c := if_pos hpos
  have hbusy : c.busyCores + 1 = cpu.busyCores := Nat.sub_add_cancel hpos
  have htb : cpu.table = c.table := rfl
  cases m with
  | mutex =>
    obtain ⟨l, hl, hg⟩ := hmay
    have hl : c.locks[id]? = some l := hl
    set l' : CpuLock E := ⟨false, l.queue.tail⟩ with hl'
    have hitems := items_wake_lock false hl
    have hw : cpu.waiting .mutex id = l.queue := waiting_of_lock hl
    refine ⟨wakeFirst { c with locks := c.locks.set id l' } l.queue, ?_, ?_⟩
    · refine ⟨cores_wakeFirst _ _, ?_, ?_, ?_, hitems, ?_, ?_, fun {m' i} hi => ?_⟩
      · rw [busyCores_wakeFirst]
        exact hbusy
      · simp only [queue_wakeFirst, hce, CpuState.line, CpuState.waiter, hw]
      · rw [hasLock_wakeFirst, hasLock_setLock, hce, hasLock_busyCores]
      · change cpu.table.release? .mutex id = _
        rw [htb, LockTable.release?, table_mutex hl, if_pos hg]
        exact congrArg some ((table_wakeFirst _ _).trans (table_setLock l' hl)).symm
      · rintro _ _ _ m' ⟨rfl, rfl, rfl⟩ hm
        obtain rfl : m' = .mutex := hm.mp rfl
        rw [waiting_wakeFirst, waiting_setLock _ hl, if_pos ⟨rfl, rfl⟩, CpuState.waiter, hw]
        exact eq_head?_append_tail l.queue
      · rw [waiting_wakeFirst, waiting_setLock _ hl, if_neg, hce, waiting_busyCores]
        rintro ⟨rfl, rfl⟩
        exact hi _ _ rfl Iff.rfl
    · simp only [onUnlock, onLockUnlock, hc, Option.bind_eq_bind, Option.bind_some, hl, hg,
        guard_true, ← hl']
      rfl
  | read =>
    obtain ⟨l, hl, hg, hlocked⟩ := hmay
    have hl : c.rwlocks[id]? = some l := hl
    have hne : l.counter ≠ 0 := by omega
    have hw : ∀ {m : Mode}, m ≠ .mutex → cpu.waiting m id = l.queue := waiting_of_rwlock hl
    by_cases h1 : l.counter = 1
    · set l' : CpuRwlock E := ⟨0, false, l.queue.tail⟩ with hl'
      have h0 : l.counter - 1 = 0 := by omega
      have hitems := items_wake_rwlock 0 false hl
      refine ⟨wakeFirst { c with rwlocks := c.rwlocks.set id l' } l.queue, ?_, ?_⟩
      · have hread : (cpu.table.rw id).1 = 1 := by rw [htb, table_rw hl]; exact h1
        refine ⟨cores_wakeFirst _ _, ?_, ?_, ?_, hitems, ?_, ?_, fun {m' i} hi => ?_⟩
        · rw [busyCores_wakeFirst]
          exact hbusy
        · simp only [queue_wakeFirst, hce, CpuState.line, CpuState.waiter,
            hw (m := .read) (by simp), hread, if_true]
        · rw [hasLock_wakeFirst, hasLock_setRwlock, hce, hasLock_busyCores]
        · change cpu.table.release? .read id = _
          rw [htb, LockTable.release?, table_rw hl]
          simp only [hne, if_false, h0, if_true, hlocked h1]
          exact congrArg some ((table_wakeFirst _ _).trans (table_setRwlock l' hl)).symm
        · rintro _ _ _ m' ⟨rfl, rfl, rfl⟩ hm
          have hm' : m' ≠ .mutex := fun h => by cases hm.mpr h
          rw [waiting_wakeFirst, waiting_setRwlock _ hl, if_pos ⟨hm', rfl⟩, CpuState.waiter,
            hw hm', hw (m := .read) (by simp), hread, if_pos rfl]
          exact eq_head?_append_tail l.queue
        · rw [waiting_wakeFirst, waiting_setRwlock _ hl, if_neg, hce, waiting_busyCores]
          rintro ⟨hm', rfl⟩
          exact hi _ _ rfl (by simpa [Mode.Same] using hm')
      · simp only [onUnlock, onRwlockReadUnlock, hc, Option.bind_eq_bind, Option.bind_some, hl,
          hg, guard_true, h0, if_true, hlocked h1, ← hl']
        rfl
    · set l' : CpuRwlock E := { l with counter := l.counter - 1 } with hl'
      have h0 : l.counter - 1 ≠ 0 := by omega
      refine ⟨{ c with rwlocks := c.rwlocks.set id l' }, ?_, ?_⟩
      · have hread : ¬(cpu.table.rw id).1 = 1 := by rw [htb, table_rw hl]; exact h1
        have hkeep := waiting_keepRwlock l' hl rfl
        rw [hce, waiting_busyCores] at hkeep
        refine ⟨rfl, hbusy, ?_, ?_, ?_, ?_, ?_, fun {m' i} hi => by rw [← hkeep]⟩
        · simp only [hce, CpuState.line, CpuState.waiter, hread, if_false, Option.toList_none,
            List.nil_append]
        · rw [hasLock_setRwlock, hce, hasLock_busyCores]
        · exact items_keepRwlock l' hl rfl
        · change cpu.table.release? .read id = _
          rw [htb, LockTable.release?, table_rw hl]
          simp only [hne, if_false, h0]
          exact congrArg some (table_setRwlock l' hl).symm
        · rintro _ _ _ m' ⟨rfl, rfl, rfl⟩ hm
          rw [CpuState.waiter, if_neg hread, ← hkeep]
          rfl
      · simp only [onUnlock, onRwlockReadUnlock, hc, Option.bind_eq_bind, Option.bind_some, hl,
          hg, guard_true, h0, if_false, ← hl']
        rfl
  | write =>
    obtain ⟨l, hl, hg, hlocked⟩ := hmay
    have hl : c.rwlocks[id]? = some l := hl
    set l' : CpuRwlock E := ⟨l.counter, false, l.queue.tail⟩ with hl'
    have hitems := items_wake_rwlock l.counter false hl
    have hw : ∀ {m : Mode}, m ≠ .mutex → cpu.waiting m id = l.queue := waiting_of_rwlock hl
    refine ⟨wakeFirst { c with rwlocks := c.rwlocks.set id l' } l.queue, ?_, ?_⟩
    · refine ⟨cores_wakeFirst _ _, ?_, ?_, ?_, hitems, ?_, ?_, fun {m' i} hi => ?_⟩
      · rw [busyCores_wakeFirst]
        exact hbusy
      · simp only [queue_wakeFirst, hce, CpuState.line, CpuState.waiter,
          hw (m := .write) (by simp)]
      · rw [hasLock_wakeFirst, hasLock_setRwlock, hce, hasLock_busyCores]
      · change cpu.table.release? .write id = _
        rw [htb, LockTable.release?, table_rw hl]
        simp only [hlocked, if_true]
        exact congrArg some ((table_wakeFirst _ _).trans (table_setRwlock l' hl)).symm
      · rintro _ _ _ m' ⟨rfl, rfl, rfl⟩ hm
        have hm' : m' ≠ .mutex := fun h => by cases hm.mpr h
        rw [waiting_wakeFirst, waiting_setRwlock _ hl, if_pos ⟨hm', rfl⟩, CpuState.waiter, hw hm',
          hw (m := .write) (by simp)]
        exact eq_head?_append_tail l.queue
      · rw [waiting_wakeFirst, waiting_setRwlock _ hl, if_neg, hce, waiting_busyCores]
        rintro ⟨hm', rfl⟩
        exact hi _ _ rfl (by simpa [Mode.Same] using hm')
    · simp only [onUnlock, onRwlockWriteUnlock, hc, Option.bind_eq_bind, Option.bind_some, hl,
        hg, guard_true, hlocked, ← hl']
      rfl

/-- An unlock message that is processed held a core and its lock. -/
theorem onUnlock_held {cpu cpu' : CpuState E} {m : Mode} {id : ℕ} {e : Option E}
    {d : Dispatch E} (h : onUnlock cpu m id e = some (cpu', d)) :
    0 < cpu.busyCores ∧ cpu.MayRelease m id := by
  cases m with
  | mutex =>
    simp only [onUnlock, onLockUnlock, Option.bind_eq_bind, Option.bind_eq_some_iff,
      Option.guard_eq_some'] at h
    obtain ⟨c, hc, l, hl, _, hg, -⟩ := h
    obtain ⟨hpos, rfl⟩ := cpuBusyCoresDec_eq hc
    exact ⟨hpos, l, hl, hg⟩
  | read =>
    simp only [onUnlock, onRwlockReadUnlock, Option.bind_eq_bind, Option.bind_eq_some_iff,
      Option.guard_eq_some'] at h
    obtain ⟨c, hc, l, hl, _, hg, h⟩ := h
    obtain ⟨hpos, rfl⟩ := cpuBusyCoresDec_eq hc
    refine ⟨hpos, l, hl, hg, fun h1 => ?_⟩
    rw [if_pos (by omega)] at h
    simp only [Option.bind_eq_some_iff, Option.guard_eq_some'] at h
    obtain ⟨_, hlocked, -⟩ := h
    exact hlocked
  | write =>
    simp only [onUnlock, onRwlockWriteUnlock, Option.bind_eq_bind, Option.bind_eq_some_iff,
      Option.guard_eq_some'] at h
    obtain ⟨c, hc, l, hl, _, hg, _, hlocked, -⟩ := h
    obtain ⟨hpos, rfl⟩ := cpuBusyCoresDec_eq hc
    exact ⟨hpos, l, hl, hg, hlocked⟩

/-! ## 5. One statement for all events -/

/-- An event that keeps its core and every lock gives nothing back. -/
theorem Freed.same {cpu : CpuState E} {ev : CpuEvent E} (hev : ∀ m id e, ev ≠ .unlock m id e)
    (hcores : ev.cores = 0) : Freed cpu ev cpu where
  cores := rfl
  busy := by rw [hcores, Nat.add_zero]
  queue := by
    cases ev with
    | unlock m id e => exact absurd rfl (hev m id e)
    | _ => rfl
  has := rfl
  items := rfl
  table := by
    cases ev with
    | unlock m id e => exact absurd rfl (hev m id e)
    | _ => rfl
  woken h _ := absurd h (hev _ _ _)
  kept _ := rfl

/-- An event that keeps no lock but holds a core gives the core back. -/
theorem Freed.dec {cpu : CpuState E} {ev : CpuEvent E} (hev : ∀ m id e, ev ≠ .unlock m id e)
    (hcores : ev.cores = 1) (hpos : 0 < cpu.busyCores) :
    Freed cpu ev { cpu with busyCores := cpu.busyCores - 1 } where
  cores := rfl
  busy := by
    rw [hcores]
    exact Nat.sub_add_cancel hpos
  queue := by
    cases ev with
    | unlock m id e => exact absurd rfl (hev m id e)
    | _ => rfl
  has := hasLock_busyCores _ _
  items := rfl
  table := by
    cases ev with
    | unlock m id e => exact absurd rfl (hev m id e)
    | _ => rfl
  woken h _ := absurd h (hev _ _ _)
  kept _ := by rw [waiting_busyCores]

/-- After its core and lock are given back, an event without anything of its own lets the CPU
take what is next. -/
theorem Freed.processed {cpu c cpu' : CpuState E} {ev : CpuEvent E} {d : Dispatch E}
    (hc : Freed cpu ev c) (hown : ev.own = none)
    (h : cpuProcessNextInQueue c = some (cpu', d)) : Processed cpu ev cpu' d := by
  unfold cpuProcessNextInQueue at h
  split at h <;> rename_i hqueue
  · simp only [Option.some.injEq, Prod.mk.injEq] at h
    obtain ⟨rfl, rfl⟩ := h
    exact .idle hc hown hqueue
  · exact .next hc hown hqueue (cpuProcess_took h)

/-- An event that arrives waits if all cores are busy, and else runs at once. -/
theorem cpuProcessEvent_user {cpu cpu' : CpuState E} {e : E} {d : Dispatch E}
    (h : cpuProcessEvent cpu (.user e) = some (cpu', d)) :
    (cpu.cores ≤ cpu.busyCores ∧ cpu' = { cpu with queue := cpu.queue ++ [.event e] } ∧
        d = .idle) ∨
      cpu.busyCores < cpu.cores ∧ cpu' = { cpu with busyCores := cpu.busyCores + 1 } ∧
        d = .run e := by
  simp only [cpuProcessEvent, cpuBusy, decide_eq_true_eq] at h
  split at h <;> rename_i hbusy
  · simp only [Option.some.injEq, Prod.mk.injEq] at h
    obtain ⟨rfl, rfl⟩ := h
    exact .inl ⟨hbusy, rfl, rfl⟩
  · exact .inr (cpuRun_eq h)

/-- **Everything an event can do to a CPU.** -/
theorem cpuProcessEvent_processed {cpu cpu' : CpuState E} {ev : CpuEvent E} {d : Dispatch E}
    (h : cpuProcessEvent cpu ev = some (cpu', d)) : Processed cpu ev cpu' d := by
  cases ev with
  | freeCore =>
    simp only [cpuProcessEvent, Option.bind_eq_bind, Option.bind_eq_some_iff] at h
    obtain ⟨c, hc, h⟩ := h
    obtain ⟨hpos, rfl⟩ := cpuBusyCoresDec_eq hc
    exact (Freed.dec (by simp) rfl hpos).processed rfl h
  | event =>
    simp only [cpuProcessEvent] at h
    split at h
    · cases h
    · exact (Freed.same (by simp) rfl).processed rfl h
  | lock m id e =>
    obtain ⟨hpos, ht⟩ := onLock_took h
    exact .own (.dec (by simp) rfl hpos) rfl ht
  | unlock m id e =>
    obtain ⟨hpos, hmay⟩ := onUnlock_held h
    obtain ⟨c, hc, hcont⟩ := onUnlock_freed e hpos hmay
    simp only [cpuProcessEvent, hcont] at h
    cases e with
    | none => exact hc.processed rfl h
    | some e =>
      obtain ⟨hlt, rfl, rfl⟩ := cpuRun_eq h
      exact .own hc rfl (.event e hlt)
  | user e =>
    rcases cpuProcessEvent_user h with ⟨hbusy, rfl, rfl⟩ | ⟨hlt, rfl, rfl⟩
    · exact .queued e rfl hbusy
    · exact .own (.same (by simp) rfl) rfl (.event e hlt)

/-! ## 6. Assertions -/

/-- An assertion fails that is about the locks, or the one in the handler of `CPU_EVENT`: all
assertions of the CPU but those in `cpu_busy_cores_inc` and `cpu_busy_cores_dec`. -/
inductive CpuState.Fault (cpu : CpuState E) : CpuEvent E → Prop
  | event (h : cpuBusy cpu = true) : cpu.Fault .event
  | lock (m : Mode) (id : ℕ) (e : E) (h : ¬cpu.HasLock m id) : cpu.Fault (.lock m id e)
  | unlock (m : Mode) (id : ℕ) (e : Option E) (h : ¬cpu.MayRelease m id) :
      cpu.Fault (.unlock m id e)

/-- Every lock message in a queue names a lock that exists. -/
def CpuState.Named (cpu : CpuState E) : Prop :=
  ∀ m id e, .lock m id e ∈ cpu.items → cpu.HasLock m id

theorem cpuRun_isSome {cpu : CpuState E} (h : cpu.busyCores < cpu.cores) (e : E) :
    (cpuRun cpu e).isSome := by
  simp [cpuRun, cpuBusyCoresInc, h]

theorem onLock_isSome {cpu : CpuState E} {m : Mode} {id : ℕ} (hpos : 0 < cpu.busyCores)
    (hle : cpu.busyCores ≤ cpu.cores) (hlock : cpu.HasLock m id) (e : E) :
    (onLock cpu m id e).isSome := by
  have hlt : cpu.busyCores - 1 < cpu.cores := by omega
  cases m with
  | mutex =>
    have hl : cpu.locks[id]? = some cpu.locks[id] := List.getElem?_eq_getElem hlock
    simp only [onLock, onLockLock, cpuBusyCoresDec, if_pos hpos, Option.bind_eq_bind,
      Option.bind_some, hl]
    split
    · rfl
    · exact cpuRun_isSome hlt e
  | read =>
    have hl : cpu.rwlocks[id]? = some cpu.rwlocks[id] := List.getElem?_eq_getElem hlock
    simp only [onLock, onRwlockReadLock, cpuBusyCoresDec, if_pos hpos, Option.bind_eq_bind,
      Option.bind_some, hl]
    split
    · rfl
    · exact cpuRun_isSome hlt e
  | write =>
    have hl : cpu.rwlocks[id]? = some cpu.rwlocks[id] := List.getElem?_eq_getElem hlock
    simp only [onLock, onRwlockWriteLock, cpuBusyCoresDec, if_pos hpos, Option.bind_eq_bind,
      Option.bind_some, hl]
    split
    · rfl
    · exact cpuRun_isSome hlt e

/-- A CPU with a free core can take what is next. -/
theorem cpuProcessNextInQueue_isSome {cpu : CpuState E} (hlt : cpu.busyCores < cpu.cores)
    (hnamed : cpu.Named) : (cpuProcessNextInQueue cpu).isSome := by
  unfold cpuProcessNextInQueue
  split
  · rfl
  · rename_i x q hqueue
    cases x with
    | event e => exact @cpuRun_isSome _ { cpu with queue := q } hlt e
    | lock m id e =>
      have hmem : .lock m id e ∈ cpu.items := by
        rw [CpuState.items, hqueue]
        simp
      simp only [cpuProcess, cpuBusyCoresInc, if_pos hlt, Option.bind_eq_bind, Option.bind_some]
      refine onLock_isSome (Nat.succ_pos cpu.busyCores) (Nat.succ_le_of_lt hlt) ?_ e
      cases m <;> exact hnamed _ id e hmem

/-- Waking a waiter only moves it. -/
theorem CpuState.Named.freed {cpu c : CpuState E} {ev : CpuEvent E} (hnamed : cpu.Named)
    (hc : Freed cpu ev c) : c.Named := by
  intro m id e hmem
  rw [hc.has]
  exact hnamed m id e (hc.items ▸ hmem)

/-- The lock of an unlock message can be given back if its assertions hold. -/
theorem onUnlock_isSome {cpu : CpuState E} {m : Mode} {id : ℕ} (hpos : 0 < cpu.busyCores)
    (hle : cpu.busyCores ≤ cpu.cores) (hnamed : cpu.Named) (hmay : cpu.MayRelease m id)
    (e : Option E) : (onUnlock cpu m id e).isSome := by
  obtain ⟨c, hc, hcont⟩ := onUnlock_freed e hpos hmay
  have hlt : c.busyCores < c.cores := by
    have hb := hc.busy
    have hcores := hc.cores
    simp only [CpuEvent.cores] at hb
    omega
  rw [hcont]
  cases e with
  | none => exact cpuProcessNextInQueue_isSome hlt (hnamed.freed hc)
  | some e => exact cpuRun_isSome hlt e

/-- **The assertions on the number of busy cores never fail on their own.** -/
theorem cpuProcessEvent_isSome {cpu : CpuState E} {ev : CpuEvent E}
    (hbusy : ev.cores ≤ cpu.busyCores) (hle : cpu.busyCores ≤ cpu.cores) (hnamed : cpu.Named)
    (hfault : ¬cpu.Fault ev) : (cpuProcessEvent cpu ev).isSome := by
  cases ev with
  | freeCore =>
    have hpos : 0 < cpu.busyCores := hbusy
    simp only [cpuProcessEvent, cpuBusyCoresDec, if_pos hpos, Option.bind_eq_bind,
      Option.bind_some]
    refine cpuProcessNextInQueue_isSome ?_ hnamed
    exact lt_of_lt_of_le (Nat.sub_lt hpos Nat.one_pos) hle
  | event =>
    have hfree : cpuBusy cpu = false := by
      by_contra h
      exact hfault (.event (by simpa using h))
    simp only [cpuProcessEvent, hfree]
    exact cpuProcessNextInQueue_isSome (by simpa [cpuBusy] using hfree) hnamed
  | lock m id e =>
    have hlock : cpu.HasLock m id := by
      by_contra h
      exact hfault (.lock m id e h)
    exact onLock_isSome hbusy hle hlock e
  | unlock m id e =>
    have hmay : cpu.MayRelease m id := by
      by_contra h
      exact hfault (.unlock m id e h)
    exact onUnlock_isSome hbusy hle hnamed hmay e
  | user e =>
    simp only [cpuProcessEvent]
    split
    · rfl
    · rename_i hfree
      exact cpuRun_isSome (by simpa [cpuBusy] using hfree) e

end CCSim
