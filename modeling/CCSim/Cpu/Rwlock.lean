/-
# The simulated read-write lock

One counter and one flag stand for the readers and the writer that hold the lock: the flag alone
for a writer, the flag and the counter for readers.  Readers and writers wait in one queue.  When
the writer, or the last reader, gives the lock back, the first waiter goes to the CPU queue, without
the lock.

The handlers are those of any program whose chains give back the read-write locks they took, once
each and in the same mode, before they end (`ReleasesRwlocks`).  Then the lock does what it is for
(`rwlock_exclusion`): a writer excludes everybody else, counter and flag say who holds it, the
assertions of the unlock messages hold, and no waiter is forgotten.

A comment in `rwlock.c` says that a reader has to wait when the flag is set and the counter is
zero, that is, for a writer.  But a writer that gives the lock back wakes one waiter only, so other
readers go on waiting while that one reads (`reader_waits_for_reader`).  As long as no reader is
granted a free lock while others wait, readers wait for writers only (`rwlock_readers_wait`).
-/
import CCSim.Cpu.Serial
import Mathlib.Algebra.Order.BigOperators.Group.Multiset

namespace CCSim

variable {S K E σ κ χ : Type}

/-! ## 1. Who holds a lock -/

/-- How often a chain that waits for the CPU or for a lock holds the lock `x` in its mode. -/
def CpuListItem.holding (x : Mode × ℕ) : CpuListItem (Chained E) → ℕ
  | .event e => e.held.count x
  | .lock m i e => (e.held.erase (m, i)).count x

/-- The same for the chain of an event.  An unlock message that is pending still holds its
lock. -/
def CpuEvent.holding (x : Mode × ℕ) : CpuEvent (Chained E) → ℕ
  | .freeCore => 0
  | .event => 0
  | .lock m i e => (e.held.erase (m, i)).count x
  | .unlock m i e => (if x = (m, i) then 1 else 0) + e.elim 0 fun e => e.held.count x
  | .user e => e.held.count x

/-- The chains that wait at a CPU and hold the lock `x`. -/
def CpuState.holding (cpu : CpuState (Chained E)) (x : Mode × ℕ) : ℕ :=
  (cpu.items.map (CpuListItem.holding x)).sum

/-- The chains of `s` that hold the lock `x` in its mode. -/
def World.holding [DecidableEq S] (W : World S K (Chained E) σ κ) (s : S) (x : Mode × ℕ) : ℕ :=
  ((W.messages s).map fun y => y.2.holding x).sum + (W.servers s).cpu.holding x

/-- No read-write lock is among these locks. -/
def NoRwlock (held : Multiset (Mode × ℕ)) : Prop := ∀ x ∈ held, x.1 = .mutex

instance : DecidablePred NoRwlock := fun held =>
  inferInstanceAs (Decidable (∀ x ∈ held, x.1 = .mutex))

/-- A handler of a chain that holds `held` ends well: a chain gives back only a read-write lock
that it holds in this mode, and it ends without one. -/
def Cont.ReleasesRwlocks (held : Multiset (Mode × ℕ)) : Cont E → Prop
  | .done => NoRwlock held
  | .lock _ _ _ => True
  | .unlock m id e => (m ≠ .mutex → (m, id) ∈ held) ∧
      (e.isNone → NoRwlock (held.erase (m, id)))

instance (held : Multiset (Mode × ℕ)) : (cont : Cont E) → Decidable (cont.ReleasesRwlocks held)
  | .done => inferInstanceAs (Decidable (NoRwlock held))
  | .lock _ _ _ => .isTrue trivial
  | .unlock m id e => inferInstanceAs (Decidable ((m ≠ .mutex → (m, id) ∈ held) ∧
      (e.isNone → NoRwlock (held.erase (m, id)))))

/-- Every chain gives back each read-write lock it took, once and in its mode, and no other. -/
def ReleasesRwlocks (r : Record S K (Chained E) σ κ) : Prop :=
  ∀ x ∈ r.call?, x.2.2.ReleasesRwlocks x.2.1.held

instance : DecidablePred (ReleasesRwlocks (S := S) (K := K) (E := E) (σ := σ) (κ := κ)) :=
  fun r => inferInstanceAs (Decidable (∀ x ∈ r.call?, x.2.2.ReleasesRwlocks x.2.1.held))

/-- The table shows these numbers of readers and writers of every read-write lock. -/
def LockTable.ShowsRwlocks (tb : LockTable) (n : Mode × ℕ → ℕ) : Prop :=
  ∀ id, Shows (tb.rw id) (n (.read, id)) (n (.write, id))

/-- What a chain holds while its handler runs. -/
def Dispatch.holding (x : Mode × ℕ) : Dispatch (Chained E) → ℕ
  | .idle => 0
  | .wait => 0
  | .run e => e.held.count x

variable {cpu cpu' c : CpuState (Chained E)} {ev : CpuEvent (Chained E)}
  {d : Dispatch (Chained E)} {n : Mode × ℕ → ℕ}

/-- Giving a lock back takes it away from its chain, and from the table. -/
theorem Freed.showsRwlocks (h : Freed cpu ev c) (hstart : ∀ e, ev = .user e → e.held = 0) (t : ℚ)
    (hcpu : cpu.table.ShowsRwlocks fun x => ((ev.message t).map fun y => y.2.holding x).sum + n x) :
    c.table.ShowsRwlocks fun x => ev.own.elim 0 (CpuListItem.holding x) + n x := by
  have htable := h.table
  cases ev with
  | freeCore => simpa [htable, CpuEvent.message, CpuEvent.holding, CpuEvent.own] using hcpu
  | event => simpa [htable, CpuEvent.message, CpuEvent.holding, CpuEvent.own] using hcpu
  | lock m i e => simpa [htable, CpuEvent.message, CpuEvent.holding, CpuEvent.own,
      CpuListItem.holding] using hcpu
  | user e => simpa [htable, CpuEvent.message, CpuEvent.own, CpuListItem.holding, hstart e rfl]
      using hcpu
  | unlock m i e =>
    have hown : ∀ x, (CpuEvent.unlock m i e).own.elim 0 (CpuListItem.holding x) =
        e.elim 0 fun e => e.held.count x := by
      intro x
      cases e <;> rfl
    intro id
    have hid := hcpu id
    simp only [CpuEvent.message, Multiset.map_singleton, Multiset.sum_singleton,
      CpuEvent.holding] at hid
    have hfreed := LockTable.release?_shows htable hid fun hx => by
      rw [if_pos hx]
      omega
    simp only [hown]
    convert hfreed using 1
    · omega
    · omega

/-- Granting a lock gives it to the chain, and adds it to the table. -/
theorem Took.showsRwlocks {x : CpuListItem (Chained E)} (h : Took c x cpu' d) (hx : x.Asks)
    (hc : c.table.ShowsRwlocks fun y =>
      x.holding y + c.holding y + n y) :
    cpu'.table.ShowsRwlocks fun y =>
      d.holding y + cpu'.holding y + n y := by
  cases h with
  | event e hfree => exact hc
  | @granted m i e cpu' hfree hlock hgrant hcpu hhas hitems hwaiting =>
    intro id
    have hheld : ∀ y, e.held.count y =
        (e.held.erase (m, i)).count y + if y = (m, i) then 1 else 0 := by
      intro y
      conv_lhs => rw [← Multiset.cons_erase hx, Multiset.count_cons]
    have hid := LockTable.grant?_shows hgrant (hc id)
    have hsame : ∀ y, cpu'.holding y = c.holding y := fun y => by
      rw [CpuState.holding, hitems, CpuState.holding]
    simp only [CpuListItem.holding] at hid
    simp only [Dispatch.holding, hsame, hheld]
    convert hid using 1
    · omega
    · omega
  | @blocked m i e cpu' hlock hgrant htable hcpu hhas hitems hwaiting =>
    have hcons : ∀ y, cpu'.holding y = (CpuListItem.lock m i e).holding y + c.holding y :=
      fun y => by rw [CpuState.holding, hitems, Multiset.map_cons, Multiset.sum_cons]; rfl
    simpa only [htable, Dispatch.holding, hcons, Nat.zero_add] using hc

/-- **One event and the holders of the read-write locks.** -/
theorem Processed.showsRwlocks (h : Processed cpu ev cpu' d)
    (hstart : ∀ e, ev = .user e → e.held = 0) (hown : ∀ x, ev.own = some x → x.Asks)
    (hitems : ∀ x ∈ cpu.items, x.Asks) (t : ℚ)
    (hcpu : cpu.table.ShowsRwlocks fun x => ((ev.message t).map fun y => y.2.holding x).sum +
      (cpu.holding x + n x)) :
    cpu'.table.ShowsRwlocks fun x =>
      d.holding x + cpu'.holding x + n x := by
  have hfreed : ∀ {c}, Freed cpu ev c → c.table.ShowsRwlocks fun x =>
      ev.own.elim 0 (CpuListItem.holding x) + (c.holding x + n x) := by
    intro c hc
    have hsame : ∀ x, c.holding x = cpu.holding x := fun x => by
      rw [CpuState.holding, hc.items, CpuState.holding]
    simpa only [hsame] using hc.showsRwlocks hstart t hcpu
  cases h with
  | queued e hev hbusy =>
    subst hev
    have hcons : ∀ x, ({ cpu with queue := cpu.queue ++ [.event e] } :
        CpuState (Chained E)).holding x = cpu.holding x := fun x => by
      rw [CpuState.holding, items_push, Multiset.map_cons, Multiset.sum_cons, CpuListItem.holding,
        hstart e rfl, Multiset.count_zero, Nat.zero_add, CpuState.holding]
    simpa [hcons, Dispatch.holding, CpuEvent.message] using hcpu
  | idle hc hnone hqueue =>
    simpa [hnone, Dispatch.holding] using hfreed hc
  | own hc hsome hx =>
    refine hx.showsRwlocks (hown _ hsome) ?_
    simpa [hsome, add_assoc] using hfreed hc
  | @next c _ x q _ hc hnone hqueue hx =>
    have hcons := CpuState.items_eq_cons hqueue
    refine hx.showsRwlocks (hitems x ?_) ?_
    · rw [← hc.items, hcons]
      exact Multiset.mem_cons_self _ _
    · have hsum : ∀ y, c.holding y =
          x.holding y + ({ c with queue := q } : CpuState (Chained E)).holding y := fun y => by
        rw [CpuState.holding, hcons, Multiset.map_cons, Multiset.sum_cons, CpuState.holding]
      simpa [hnone, hsum, add_assoc] using hfreed hc

/-- The message a handler ends with holds what its chain holds. -/
theorem follow_holding {held : Multiset (Mode × ℕ)} {cont : Cont E}
    (h : (cont.follow held).ReleasesRwlocks held) {x : Mode × ℕ} (hx : x.1 ≠ .mutex) :
    (cont.follow held).message.holding x = held.count x := by
  cases cont with
  | done => exact (Multiset.count_eq_zero_of_notMem fun hmem => hx (h _ hmem)).symm
  | lock m i e => simp [Cont.follow, Cont.message, CpuEvent.holding]
  | unlock m i e =>
    obtain ⟨hmem, hend⟩ := h
    have hrest : (e.map fun e => (⟨e, held.erase (m, i)⟩ : Chained E)).elim 0
        (fun e => e.held.count x) = (held.erase (m, i)).count x := by
      cases e with
      | none => exact (Multiset.count_eq_zero_of_notMem fun hmem => hx (hend rfl _ hmem)).symm
      | some e => rfl
    simp only [Cont.follow, Cont.message, CpuEvent.holding, hrest]
    by_cases hc : x = (m, i)
    · subst hc
      rw [if_pos rfl, Multiset.count_erase_self]
      have := Multiset.count_pos.mpr (hmem hx)
      omega
    · rw [if_neg hc, Multiset.count_erase_of_ne hc, Nat.zero_add]

section Exclusion

variable [DecidableEq S] [DecidableEq K] [Fintype S] {P : Program S K E σ κ χ}
  {conf : SimConfig S K (Chained E)} {W₀ : World S K E σ κ} {W W' : World S K (Chained E) σ κ}
  {tr : List (Record S K (Chained E) σ κ)} {s : S} {t : ℚ}
  {a : Option (Act S K (Chained E) σ κ)} {id : ℕ}

omit [DecidableEq S] [DecidableEq K] [Fintype S] in
/-- A handler leaves behind what its chain holds. -/
theorem Leaves.holding {st : σ} {new : Multiset (ℚ × CpuEvent (Chained E))}
    (h : Leaves P.chained s t st d a new) {tgt : Target S K (Chained E)}
    (hG : ReleasesRwlocks (⟨W, t, tgt, a⟩ : Record S K (Chained E) σ κ)) {x : Mode × ℕ}
    (hx : x.1 ≠ .mutex) : (new.map fun y => y.2.holding x).sum = d.holding x := by
  cases h with
  | idle => rfl
  | wait => rfl
  | @run e r t' hr ht =>
    obtain ⟨r', hr', rfl⟩ := Option.map_eq_some_iff.mp hr
    rw [Multiset.map_singleton, Multiset.sum_singleton]
    exact follow_holding (hG _ rfl) hx

omit [DecidableEq K] in
/-- The table goes on to show who holds the read-write locks. -/
theorem World.CpuStep.showsRwlocks {tgt : Target S K (Chained E)}
    (hplaced : ∀ x ∈ W.config.pool, x.Placed) (hev : (t, tgt) ∈ W.events)
    (h : World.CpuStep P.chained W s t tgt a W')
    (hG : ReleasesRwlocks (⟨W, t, tgt, a⟩ : Record S K (Chained E) σ κ))
    (hW : (W.servers s).cpu.table.ShowsRwlocks (W.holding s)) :
    (W'.servers s).cpu.table.ShowsRwlocks (W'.holding s) := by
  cases h with
  | other _ _ hcpu hmessages =>
    intro id
    rw [World.holding, World.holding, hcpu, hmessages]
    exact hW id
  | @own ev _ _ d rest new hold hprocess hleaves hnew =>
    have hcpu := (cpuProcessEvent_processed hprocess).showsRwlocks
      (n := fun x => (rest.map fun y => y.2.holding x).sum)
      (by rintro e rfl; exact hplaced _ (World.event_mem_pool hev rfl))
      (World.own_asks hplaced hev) (World.items_ask hplaced s) t ?_
    · intro id
      have hsum : ∀ x : Mode × ℕ, x.1 ≠ .mutex → W'.holding s x =
          d.holding x + (W'.servers s).cpu.holding x + (rest.map fun y => y.2.holding x).sum := by
        intro x hx
        have := hleaves.holding hG hx
        rw [World.holding, hnew, Multiset.map_add, Multiset.sum_add]
        omega
      rw [hsum _ (by simp), hsum _ (by simp)]
      exact hcpu id
    · intro id
      have hsum : ∀ x : Mode × ℕ, W.holding s x = ((ev.message t).map fun y => y.2.holding x).sum +
          ((W.servers s).cpu.holding x + (rest.map fun y => y.2.holding x).sum) := by
        intro x
        rw [World.holding, hold, Multiset.map_add, Multiset.sum_add]
        omega
      have := hW id
      rwa [hsum, hsum] at this

theorem World.Trace.showsRwlocks (hfresh : W₀.Fresh)
    (htrace : World.Trace P.chained conf ReleasesRwlocks W₀.chained W tr) (s : S) :
    (W.servers s).cpu.table.ShowsRwlocks (W.holding s) := by
  induction htrace with
  | nil =>
    have h := hfresh.chained s
    have hzero : ∀ x, W₀.chained.holding s x = 0 := by
      intro x
      rw [World.holding, h.2, CpuState.holding, h.1.items]
      rfl
    intro id
    rw [hzero, hzero]
    exact h.1.holds.rw id
  | cons c htrace hev hstep hG ih =>
    obtain ⟨-, -, -, h⟩ := World.step_cpu hev hstep s
    exact h.showsRwlocks (htrace.placed hfresh) (List.mem_of_getElem? hev) hG ih

end Exclusion

/-! ## 2. Waiters -/

section Waiters

variable {cpu cpu' c : CpuState E} {ev : CpuEvent E} {d : Dispatch E} {id : ℕ}

/-- Someone holds the read-write lock, as the table shows. -/
def LockTable.RwHeld (tb : LockTable) (id : ℕ) : Prop := tb.rw id ≠ (0, false)

/-- Whoever waits at a read-write lock waits for someone who holds it, or for a request in the CPU
queue. -/
def CpuState.RwAwaited (cpu : CpuState E) (id : ℕ) : Prop :=
  cpu.waiting .read id ≠ [] → cpu.table.RwHeld id ∨
    ∃ m e, m ≠ .mutex ∧ .lock m id e ∈ cpu.queue

/-- Giving back another lock leaves a read-write lock as it is. -/
theorem LockTable.release?_rw {tb tb' : LockTable} {m : Mode} {i : ℕ}
    (h : tb.release? m i = some tb') (hne : ¬(m ≠ .mutex ∧ i = id)) : tb'.rw id = tb.rw id := by
  have hid : m = .mutex ∨ id ≠ i := by
    by_contra hcon
    push Not at hcon
    exact hne ⟨hcon.1, hcon.2.symm⟩
  cases m <;> simp only [LockTable.release?] at h
  all_goals repeat' split at h
  all_goals simp only [Option.some.injEq, reduceCtorEq] at h
  all_goals subst h
  · rfl
  all_goals simp [hid.resolve_left (by simp)]

/-- Granting another lock leaves it as it is. -/
theorem LockTable.grant?_rw {tb tb' : LockTable} {m : Mode} {i : ℕ}
    (h : tb.grant? m i = some tb') (hne : ¬(m ≠ .mutex ∧ i = id)) : tb'.rw id = tb.rw id := by
  have hid : m = .mutex ∨ id ≠ i := by
    by_contra hcon
    push Not at hcon
    exact hne ⟨hcon.1, hcon.2.symm⟩
  cases m <;> simp only [LockTable.grant?] at h <;> split at h <;>
    simp only [Option.some.injEq, reduceCtorEq] at h <;> subst h
  · rfl
  all_goals simp [hid.resolve_left (by simp)]

/-- A reader that is not the last one leaves the lock held. -/
theorem LockTable.release?_read {tb tb' : LockTable} (h : tb.release? .read id = some tb')
    (hne : (tb.rw id).1 ≠ 1) : tb'.RwHeld id := by
  simp only [LockTable.release?] at h
  split at h
  · cases h
  · split at h
    · omega
    · rename_i h0
      cases h
      simp only [LockTable.RwHeld, Function.update_self]
      exact fun heq => h0 (congrArg Prod.fst heq)

theorem LockTable.grant?_held {tb tb' : LockTable} {m : Mode} (h : tb.grant? m id = some tb')
    (hm : m ≠ .mutex) : tb'.RwHeld id := by
  cases m with
  | mutex => exact absurd rfl hm
  | read =>
    simp only [LockTable.grant?] at h
    split at h <;> simp only [Option.some.injEq, reduceCtorEq] at h
    subst h
    simp [LockTable.RwHeld]
  | write =>
    simp only [LockTable.grant?] at h
    split at h <;> simp only [Option.some.injEq, reduceCtorEq] at h
    subst h
    simp [LockTable.RwHeld]

/-- A request that has to wait finds the lock held. -/
theorem LockTable.grant?_none {tb : LockTable} {m : Mode} (h : tb.grant? m id = none)
    (hm : m ≠ .mutex) : tb.RwHeld id := by
  intro hfree
  cases m with
  | mutex => exact absurd rfl hm
  | read => simp [LockTable.grant?, hfree] at h
  | write => simp [LockTable.grant?, hfree] at h

/-- After a read-write lock is given back, its first waiter is in the CPU queue, or somebody else
still reads. -/
theorem Freed.rwAwaited (h : Freed cpu ev c) (hsorted : cpu.Sorted) (hcpu : cpu.RwAwaited id) :
    c.RwAwaited id := by
  intro hne
  have hsub : ∀ x ∈ cpu.queue, x ∈ c.queue := by
    intro x hx
    rw [h.queue]
    cases ev with
    | unlock m i e => exact List.mem_append_right _ hx
    | _ => exact hx
  by_cases hev : ∃ m e, ev = .unlock m id e ∧ m ≠ .mutex
  · obtain ⟨m, e, rfl, hm⟩ := hev
    have hwoken := h.woken rfl (show m.Same .read by simp [Mode.Same, hm])
    cases hw : cpu.waiter m id with
    | some x =>
      obtain ⟨m', e', rfl, hm'⟩ := hsorted m id x (CpuState.mem_waiting hw)
      refine .inr ⟨m', e', fun h => hm (hm'.mpr h), ?_⟩
      rw [h.queue, CpuState.line, hw]
      exact List.mem_append_left _ (List.mem_singleton.mpr rfl)
    | none =>
      rw [hw, Option.toList_none, List.nil_append] at hwoken
      have hne' : cpu.waiting .read id ≠ [] := hwoken ▸ hne
      left
      cases m with
      | mutex => exact absurd rfl hm
      | read =>
        refine LockTable.release?_read h.table fun h1 => hne' ?_
        rw [CpuState.waiter, if_pos h1] at hw
        exact List.head?_eq_none_iff.mp hw
      | write => exact absurd (List.head?_eq_none_iff.mp hw) hne'
  · have hkept : c.waiting .read id = cpu.waiting .read id := by
      refine h.kept fun m e he hm => hev ⟨m, e, he, fun hmutex => ?_⟩
      cases hm.mp hmutex
    have htable : c.table.rw id = cpu.table.rw id := by
      have htable := h.table
      cases ev with
      | unlock m i e =>
        refine LockTable.release?_rw htable ?_
        rintro ⟨hm, rfl⟩
        exact hev ⟨m, e, rfl, hm⟩
      | freeCore => exact congrArg (LockTable.rw · id) htable
      | event => exact congrArg (LockTable.rw · id) htable
      | lock m i e => exact congrArg (LockTable.rw · id) htable
      | user e => exact congrArg (LockTable.rw · id) htable
    rcases hcpu (hkept ▸ hne) with hheld | hwaits
    · left
      rwa [LockTable.RwHeld, htable]
    · obtain ⟨m, e, hm, he⟩ := hwaits
      exact .inr ⟨m, e, hm, hsub _ he⟩

/-- A request that is taken up finds the lock held, or takes it. -/
theorem Took.rwAwaited {x : CpuListItem E} (h : Took c x cpu' d)
    (hc : c.waiting .read id ≠ [] → c.table.RwHeld id ∨
      ∃ m e, m ≠ .mutex ∧ .lock m id e ∈ x :: c.queue) : cpu'.RwAwaited id := by
  -- an item that is no request for the lock changes nothing
  have key : (∀ m e, m ≠ .mutex → x ≠ .lock m id e) → cpu'.waiting .read id = c.waiting .read id →
      cpu'.table.rw id = c.table.rw id → cpu'.queue = c.queue → cpu'.RwAwaited id := by
    intro hx hw ht hq hne
    rw [LockTable.RwHeld, ht, hq]
    refine (hc (hw ▸ hne)).imp_right ?_
    rintro ⟨m, e, hm, he⟩
    refine ⟨m, e, hm, ?_⟩
    rcases List.mem_cons.mp he with he | he
    · exact absurd he.symm (hx m e hm)
    · exact he
  cases h with
  | event e hfree => exact key (by simp) (by rw [waiting_busyCores]) rfl rfl
  | @granted m i e cpu' hfree hlock hgrant hcpu hhas hitems hwaiting =>
    by_cases hm : m ≠ .mutex ∧ i = id
    · obtain ⟨hm, rfl⟩ := hm
      exact fun _ => .inl (LockTable.grant?_held hgrant hm)
    · refine key ?_ (by rw [hwaiting]) (LockTable.grant?_rw hgrant hm) (by rw [hcpu])
      rintro m' e' hm' ⟨⟩
      exact hm ⟨hm', rfl⟩
  | @blocked m i e cpu' hlock hgrant htable hcpu hhas hitems hwaiting =>
    by_cases hm : m ≠ .mutex ∧ i = id
    · obtain ⟨hm, rfl⟩ := hm
      intro _
      left
      rw [htable]
      exact LockTable.grant?_none hgrant hm
    · refine key ?_ ?_ (by rw [htable]) (by rw [hcpu])
      · rintro m' e' hm' ⟨⟩
        exact hm ⟨hm', rfl⟩
      · rw [hwaiting, if_neg, List.append_nil]
        rintro ⟨hsame, rfl⟩
        refine hm ⟨fun h => ?_, rfl⟩
        cases hsame.mp h

theorem Processed.rwAwaited (h : Processed cpu ev cpu' d) (hsorted : cpu.Sorted)
    (hcpu : cpu.RwAwaited id) : cpu'.RwAwaited id := by
  cases h with
  | queued e hev hbusy =>
    intro hne
    rw [waiting_queue] at hne
    refine (hcpu hne).imp_right ?_
    rintro ⟨m, e', hm, he⟩
    exact ⟨m, e', hm, List.mem_append_left _ he⟩
  | idle hc ho hqueue => exact hc.rwAwaited hsorted hcpu
  | own hc ho hx =>
    refine hx.rwAwaited fun hne => ?_
    refine (hc.rwAwaited hsorted hcpu hne).imp_right ?_
    rintro ⟨m, e, hm, he⟩
    exact ⟨m, e, hm, List.mem_cons_of_mem _ he⟩
  | next hc ho hqueue hx =>
    refine hx.rwAwaited fun hne => ?_
    rw [waiting_queue] at hne
    have := hc.rwAwaited hsorted hcpu hne
    rwa [hqueue] at this

/-- Nothing but a waiter and an event that arrives gets into the CPU queue. -/
theorem Processed.mem_queue (h : Processed cpu ev cpu' d) {x : CpuListItem E}
    (hx : x ∈ cpu'.queue) : x ∈ cpu.line ev ∨ ∃ e, x = .event e := by
  cases h with
  | queued e hev hbusy =>
    subst hev
    rcases List.mem_append.mp hx with hx | hx
    · exact .inl hx
    · exact .inr ⟨e, List.mem_singleton.mp hx⟩
  | idle hc hown hqueue =>
    rw [hqueue] at hx
    cases hx
  | own hc hown htook =>
    obtain ⟨-, hq, -⟩ := htook.counts
    rw [hq, hc.queue] at hx
    exact .inl hx
  | next hc hown hqueue htook =>
    obtain ⟨-, hq, -⟩ := htook.counts
    rw [hq] at hx
    left
    rw [← hc.queue, hqueue]
    exact List.mem_cons_of_mem _ hx

end Waiters

/-! ## 3. What the lock is for -/

section Trace

variable [DecidableEq S] [DecidableEq K] {P : Program S K E σ κ χ} {conf : SimConfig S K E}
  {G : Record S K E σ κ → Prop} {W₀ W : World S K E σ κ} {tr : List (Record S K E σ κ)}

/-- The queues of the locks are sorted, whoever waits is waited for, and a request in the CPU queue
has waited at its lock. -/
theorem World.Trace.rwAwaited (hfresh : W₀.Fresh) (htrace : World.Trace P conf G W₀ W tr) (s : S)
    (id : ℕ) : (W.servers s).cpu.Sorted ∧ (W.servers s).cpu.RwAwaited id ∧
      ∀ m i e, .lock m i e ∈ (W.servers s).cpu.queue →
        ∃ r ∈ tr, .lock m i e ∈ (r.before.servers s).cpu.waiting m i := by
  induction htrace with
  | nil =>
    have hwaiting : ∀ m i, (W₀.servers s).cpu.waiting m i = [] := (hfresh s).1.waiting
    refine ⟨fun m i x hx => ?_, fun hne => absurd (hwaiting _ _) hne, fun m i e he => ?_⟩
    · rw [hwaiting] at hx
      cases hx
    · rw [(hfresh s).1.queue] at he
      cases he
  | @cons W W' tr t tgt a c htrace hev hstep hG ih =>
    obtain ⟨hsorted, hawaited, hqueue⟩ := ih
    obtain ⟨-, -, -, h⟩ := World.step_cpu hev hstep s
    cases h with
    | other htgt hact hcpu hmessages =>
      rw [hcpu]
      refine ⟨hsorted, hawaited, fun m i e he => ?_⟩
      obtain ⟨r, hr, hw⟩ := hqueue m i e he
      exact ⟨r, List.mem_cons_of_mem _ hr, hw⟩
    | @own ev _ _ d rest new hold hprocess hleaves hnew =>
      have hp := cpuProcessEvent_processed hprocess
      refine ⟨hp.sorted hsorted, hp.rwAwaited hsorted hawaited, fun m i e he => ?_⟩
      rcases hp.mem_queue he with hline | ⟨e', h⟩
      · -- it was in the queue before, or it is the waiter that the event wakes
        have hcases : .lock m i e ∈ (W.servers s).cpu.queue ∨
            ∃ m' i', (W.servers s).cpu.waiter m' i' = some (.lock m i e) := by
          cases ev with
          | unlock m' i' e' =>
            rcases List.mem_append.mp hline with h | h
            · exact .inr ⟨m', i', Option.mem_toList.mp h⟩
            · exact .inl h
          | _ => exact .inl hline
        rcases hcases with hq | ⟨m', i', hw⟩
        · obtain ⟨r, hr, hw⟩ := hqueue m i e hq
          exact ⟨r, List.mem_cons_of_mem _ hr, hw⟩
        · have hmem := CpuState.mem_waiting hw
          obtain ⟨m'', e'', heq, hsame⟩ := hsorted m' i' _ hmem
          cases heq
          refine ⟨_, List.mem_cons_self, ?_⟩
          have hlist : (W.servers s).cpu.waiting m i = (W.servers s).cpu.waiting m' i := by
            cases m <;> cases m' <;> first | rfl | (simp [Mode.Same] at hsame)
          rwa [hlist]
      · cases h

end Trace

section Exclusion

variable [DecidableEq S] [DecidableEq K] [Fintype S] {P : Program S K E σ κ χ}
  {conf : SimConfig S K E} {W₀ : World S K E σ κ} {W : World S K (Chained E) σ κ}
  {tr : List (Record S K (Chained E) σ κ)}

/-- **The simulated read-write lock.**  A writer that holds it excludes every other writer and all
readers; the counter is the number of readers, and the flag is set if there is one.  The assertions
of the unlock messages that are pending hold.  While something waits, somebody holds the lock, or a
request that has waited for it is in the CPU queue. -/
theorem rwlock_exclusion (hfresh : W₀.Fresh)
    (htrace : World.Trace P.chained conf.chained ReleasesRwlocks W₀.chained W tr) (s : S) (id : ℕ) :
    (0 < W.holding s (.write, id) →
      W.holding s (.write, id) = 1 ∧ W.holding s (.read, id) = 0) ∧
    ((W.servers s).cpu.table.rw id).1 = W.holding s (.read, id) ∧
    (0 < ((W.servers s).cpu.table.rw id).1 → ((W.servers s).cpu.table.rw id).2 = true) ∧
    (∀ t m e, m ≠ .mutex → (t, .server s (.unlock m id e)) ∈ W.events →
      (W.servers s).cpu.MayRelease m id) ∧
    ((W.servers s).cpu.waiting .read id ≠ [] →
      0 < W.holding s (.read, id) + W.holding s (.write, id) ∨
      ∃ m e, m ≠ .mutex ∧ .lock m id e ∈ (W.servers s).cpu.queue ∧
        ∃ r ∈ tr, .lock m id e ∈ (r.before.servers s).cpu.waiting m id) := by
  obtain ⟨hreaders, hwriters, hflag⟩ := htrace.showsRwlocks hfresh s id
  obtain ⟨-, hawaited, hqueue⟩ := htrace.rwAwaited hfresh.chained s id
  -- an unlock message that is pending holds its lock
  have hpending : ∀ t m e, (t, .server s (.unlock m id e)) ∈ W.events →
      0 < W.holding s (m, id) := by
    intro t m e hev
    have hmem : (t, .unlock m id e) ∈ W.messages s := World.mem_messages.mpr ⟨hev, by simp⟩
    have hone : 1 ≤ CpuEvent.holding (m, id) (CpuEvent.unlock m id e) := by
      simp [CpuEvent.holding]
    have hle := Multiset.single_le_sum (fun _ _ => Nat.zero_le _) _
      (Multiset.mem_map_of_mem (fun y => y.2.holding (m, id)) hmem)
    exact Nat.lt_of_lt_of_le hone (hle.trans (Nat.le_add_right _ _))
  refine ⟨fun hpos => ?_, hreaders, fun hpos => hflag hpos.ne', ?_, fun hne => ?_⟩
  · split at hwriters <;> rename_i h
    · omega
    · omega
  · intro t m e hm hev
    have hpos := hpending t m e hev
    cases m with
    | mutex => exact absurd rfl hm
    | read =>
      have hcount : ((W.servers s).cpu.table.rw id).1 ≠ 0 := by omega
      have hset := hflag hcount
      cases hl : (W.servers s).cpu.rwlocks[id]? with
      | none => simp [CpuState.table, hl] at hcount
      | some l =>
        rw [table_rw hl] at hcount hset
        exact ⟨l, hl, Nat.pos_of_ne_zero hcount, fun _ => hset⟩
    | write =>
      split at hwriters <;> rename_i h
      · obtain ⟨hset, hzero⟩ := h
        cases hl : (W.servers s).cpu.rwlocks[id]? with
        | none => simp [CpuState.table, hl] at hset
        | some l =>
          rw [table_rw hl] at hset hzero
          exact ⟨l, hl, .inl hzero, hset⟩
      · omega
  · rcases hawaited hne with hheld | ⟨m, e, hm, hmem⟩
    · left
      by_cases hcount : ((W.servers s).cpu.table.rw id).1 = 0
      · by_cases hset : ((W.servers s).cpu.table.rw id).2 = true
        · rw [if_pos ⟨hset, hcount⟩] at hwriters
          omega
        · exact absurd (Prod.ext hcount (Bool.eq_false_iff.mpr hset)) hheld
      · omega
    · exact .inr ⟨m, e, hm, hmem, hqueue m id e hmem⟩

end Exclusion

/-! ## 4. A small program -/

/-- A job asks for the lock and reads or writes with it. -/
inductive RwJob
  | askRead
  | reading
  | askWrite
  | writing
  deriving DecidableEq

def rwJobs : Program Unit Unit RwJob Unit Unit Unit where
  serve _ _ _ e := some <| match e with
    | .askRead => { state := (), cont := .lock .read 0 .reading }
    | .reading => { state := (), cont := .unlock .read 0 none }
    | .askWrite => { state := (), cont := .lock .write 0 .writing }
    | .writing => { state := (), cont := .unlock .write 0 none }
  client _ _ _ _ _ := some ((), [])

def rwConf : SimConfig Unit Unit RwJob := ⟨⟨fun _ _ => some 0, fun _ => 1⟩, fun _ => 0⟩

/-- A job writes, and two read. -/
def rwWorld : World Unit Unit RwJob Unit Unit where
  now := 0
  servers _ := { state := (), cpu := { cores := 2, rwlocks := [{}] } }
  clients _ := { state := () }
  events := [(0, .server () (.user .askWrite)), (2, .server () (.user .askRead)),
    (4, .server () (.user .askRead))]

theorem rwWorld_fresh : rwWorld.Fresh := by
  refine fun s => ⟨⟨by simp [rwWorld], rfl, rfl, ?_, ?_⟩, rfl⟩
  · simp [rwWorld]
  · simp [rwWorld]

/-- The writer writes until 10, and both readers wait. -/
def rwBlocked : List (ℕ × ℚ) := [(0, 1), (2, 9), (0, 1), (2, 1), (2, 1), (0, 1), (1, 1), (1, 1)]

/-- Both readers wait for the writer. -/
theorem rwlock_exclusion_blocked : ∃ W tr,
    World.Trace rwJobs.chained rwConf.chained ReleasesRwlocks rwWorld.chained W tr ∧
      (W.servers ()).cpu.waiting .read 0 ≠ [] ∧ W.holding () (.write, 0) = 1 ∧
        W.holding () (.read, 0) = 0 := by
  obtain ⟨W, tr, htrace, hseen⟩ := World.Trace.of_retrace rwJobs.chained rwConf.chained
    rwWorld.chained ReleasesRwlocks (jobChoices rwBlocked)
    (fun W => decide ((W.servers ()).cpu.waiting .read 0 ≠ [] ∧
      0 < W.holding () (.write, 0))) (by decide +kernel)
  obtain ⟨hwaiting, hpos⟩ := of_decide_eq_true hseen
  obtain ⟨hexcl, -⟩ := rwlock_exclusion rwWorld_fresh htrace () 0
  exact ⟨W, tr, htrace, hwaiting, hexcl hpos⟩

/-! ## 5. Whom a reader waits for -/

/-- The waiters of a read-write lock that an event leaves where they are. -/
def CpuState.staying (cpu : CpuState E) (ev : CpuEvent E) (id : ℕ) : List (CpuListItem E) :=
  match ev with
  | .unlock m i _ => if m ≠ .mutex ∧ i = id then
      (cpu.waiting .read id).drop (cpu.waiter m i).toList.length else cpu.waiting .read id
  | _ => cpu.waiting .read id

/-- The locks once an event has given its own one back. -/
def LockTable.afterUnlock (tb : LockTable) : CpuEvent E → LockTable
  | .unlock m i _ => (tb.release? m i).getD tb
  | _ => tb

/-- The item asks for the lock as a reader. -/
def CpuListItem.reads (id : ℕ) : CpuListItem E → Bool
  | .lock .read i _ => i = id
  | _ => false

/-- The event, if it is one of `s`. -/
def Target.event? [DecidableEq S] (s : S) : Target S K E → Option (CpuEvent E)
  | .server s' ev => if s' = s then some ev else none
  | .client _ _ => none

/-- An event of `s` in which the CPU takes up a reader of a free lock leaves no reader waiting
there. -/
def ReadersStartTogether [DecidableEq S] (s : S) (id : ℕ) (r : Record S K E σ κ) : Prop :=
  ∀ x ∈ r.target.event? s, ∀ y ∈ (r.before.servers s).cpu.takes x, y.reads id →
    ((r.before.servers s).cpu.table.afterUnlock x).rw id = (0, false) →
      ∀ z ∈ (r.before.servers s).cpu.staying x id, z.reads id = false

instance [DecidableEq S] (s : S) (id : ℕ) :
    DecidablePred (ReadersStartTogether (K := K) (E := E) (σ := σ) (κ := κ) s id) := fun r =>
  inferInstanceAs (Decidable (∀ x ∈ r.target.event? s, ∀ y ∈ (r.before.servers s).cpu.takes x,
    y.reads id → ((r.before.servers s).cpu.table.afterUnlock x).rw id = (0, false) →
      ∀ z ∈ (r.before.servers s).cpu.staying x id, z.reads id = false))

/-- Nobody who wants to read waits while others read. -/
def CpuState.ReadersGo (cpu : CpuState E) (id : ℕ) : Prop :=
  ∀ z ∈ cpu.waiting .read id, z.reads id → (cpu.table.rw id).1 = 0

section Readers

variable {cpu cpu' c : CpuState E} {ev : CpuEvent E} {d : Dispatch E} {id : ℕ}

theorem Freed.staying (h : Freed cpu ev c) (id : ℕ) :
    c.waiting .read id = cpu.staying ev id := by
  by_cases hev : ∃ m e, ev = .unlock m id e ∧ m ≠ .mutex
  · obtain ⟨m, e, rfl, hm⟩ := hev
    have hwoken := h.woken rfl (show m.Same .read by simp [Mode.Same, hm])
    simp only [CpuState.staying, hm, ne_eq, not_false_eq_true, and_self, if_true]
    rw [hwoken, List.drop_left]
  · have hkept : c.waiting .read id = cpu.waiting .read id := by
      refine h.kept fun m e he hm => hev ⟨m, e, he, fun hmutex => ?_⟩
      cases hm.mp hmutex
    rw [hkept]
    cases ev with
    | unlock m i e =>
      refine (if_neg ?_).symm
      rintro ⟨hm, rfl⟩
      exact hev ⟨m, e, rfl, hm⟩
    | _ => rfl

theorem Freed.afterUnlock (h : Freed cpu ev c) : c.table = cpu.table.afterUnlock ev := by
  have htable := h.table
  cases ev with
  | unlock m i e =>
    have : cpu.table.release? m i = some c.table := htable
    rw [LockTable.afterUnlock, this]
    rfl
  | _ => exact htable

/-- A lock without readers has none after any is given back. -/
theorem LockTable.release?_zero {tb tb' : LockTable} {m : Mode} {i : ℕ}
    (h : tb.release? m i = some tb') (hzero : (tb.rw id).1 = 0) : (tb'.rw id).1 = 0 := by
  by_cases hc : m ≠ .mutex ∧ i = id
  · obtain ⟨hm, rfl⟩ := hc
    cases m with
    | mutex => exact absurd rfl hm
    | read => simp [LockTable.release?, hzero] at h
    | write =>
      simp only [LockTable.release?] at h
      split at h <;> simp only [Option.some.injEq, reduceCtorEq] at h
      subst h
      simpa using hzero
  · rw [LockTable.release?_rw h hc]
    exact hzero

theorem Freed.readersGo (h : Freed cpu ev c) (hcpu : cpu.ReadersGo id) : c.ReadersGo id := by
  intro z hz hreads
  have hmem : z ∈ cpu.waiting .read id := by
    rw [h.staying] at hz
    cases ev with
    | unlock m i e =>
      simp only [CpuState.staying] at hz
      split at hz
      · exact List.mem_of_mem_drop hz
      · exact hz
    | _ => exact hz
  have hzero := hcpu z hmem hreads
  have htable := h.table
  cases ev with
  | unlock m i e => exact LockTable.release?_zero htable hzero
  | freeCore => exact htable ▸ hzero
  | event => exact htable ▸ hzero
  | lock m i e => exact htable ▸ hzero
  | user e => exact htable ▸ hzero

/-- A reader that is granted the lock joins readers, or finds it free. -/
theorem Took.readersGo {x : CpuListItem E} (h : Took c x cpu' d) (hcpu : c.ReadersGo id)
    (htogether : x.reads id → c.table.rw id = (0, false) →
      ∀ z ∈ c.waiting .read id, z.reads id = false) : cpu'.ReadersGo id := by
  cases h with
  | event e hfree => exact fun z hz => hcpu z (waiting_busyCores c _ ▸ hz)
  | @granted m i e cpu' hfree hlock hgrant hcpu' hhas hitems hwaiting =>
    intro z hz hreads
    rw [hwaiting] at hz
    have hzero := hcpu z hz hreads
    by_cases hc : m ≠ .mutex ∧ i = id
    · obtain ⟨hm, rfl⟩ := hc
      cases m with
      | mutex => exact absurd rfl hm
      | read =>
        -- nobody reads, so the lock was free
        simp only [LockTable.grant?, hzero] at hgrant
        split at hgrant <;> rename_i hflag
        · cases hgrant
        · have hfree : c.table.rw i = (0, false) := Prod.ext hzero (by simpa using hflag)
          have := htogether (by simp [CpuListItem.reads]) hfree z hz
          rw [hreads] at this
          cases this
      | write =>
        simp only [LockTable.grant?] at hgrant
        split at hgrant <;> simp only [Option.some.injEq, reduceCtorEq] at hgrant
        rw [← hgrant]
        simpa using hzero
    · rw [LockTable.grant?_rw hgrant hc]
      exact hzero
  | @blocked m i e cpu' hlock hgrant htable hcpu' hhas hitems hwaiting =>
    intro z hz hreads
    rw [hwaiting] at hz
    rw [htable]
    rcases List.mem_append.mp hz with hz | hz
    · exact hcpu z hz hreads
    · split at hz <;> rename_i hsame
      · -- the reader that has to wait finds a writer
        obtain rfl := List.mem_singleton.mp hz
        cases m with
        | read =>
          obtain rfl : i = id := by simpa [CpuListItem.reads] using hreads
          simp only [LockTable.grant?] at hgrant
          split at hgrant <;> rename_i hflag
          · simpa using (Bool.and_eq_true_iff.mp hflag).2
          · cases hgrant
        | mutex => cases hreads
        | write => cases hreads
      · cases hz

theorem Processed.readersGo (h : Processed cpu ev cpu' d) (hcpu : cpu.ReadersGo id)
    (htogether : ∀ y ∈ cpu.takes ev, y.reads id → (cpu.table.afterUnlock ev).rw id = (0, false) →
      ∀ z ∈ cpu.staying ev id, z.reads id = false) : cpu'.ReadersGo id := by
  cases h with
  | queued e hev hbusy => exact fun z hz => hcpu z (waiting_queue cpu _ ▸ hz)
  | idle hc ho hqueue => exact hc.readersGo hcpu
  | @own c _ x _ hc ho hx =>
    refine hx.readersGo (hc.readersGo hcpu) ?_
    rw [hc.staying, hc.afterUnlock]
    exact htogether x (by rw [CpuState.takes, ho]; rfl)
  | @next c _ x q _ hc ho hqueue hx =>
    refine hx.readersGo (fun z hz => hc.readersGo hcpu z (waiting_queue c _ ▸ hz)) ?_
    rw [waiting_queue, table_queue, hc.staying, hc.afterUnlock]
    exact htogether x (by rw [CpuState.takes, ho, ← hc.queue, hqueue]; rfl)

end Readers

/-- **Readers wait for writers.**  If no reader is granted a free lock while another reader waits
at it, then nobody waits to read while others read, in any state. -/
theorem rwlock_readers_wait [DecidableEq S] [DecidableEq K] {P : Program S K E σ κ χ}
    {conf : SimConfig S K E} {W₀ W : World S K E σ κ} {tr : List (Record S K E σ κ)}
    (hfresh : W₀.Fresh) (s : S) (id : ℕ)
    (htrace : World.Trace P conf (ReadersStartTogether s id) W₀ W tr) (e : E)
    (hwaits : .lock .read id e ∈ (W.servers s).cpu.waiting .read id) :
    ((W.servers s).cpu.table.rw id).1 = 0 := by
  have hgo : (W.servers s).cpu.ReadersGo id := by
    clear hwaits
    induction htrace with
    | nil =>
      intro z hz
      rw [(hfresh s).1.waiting] at hz
      cases hz
    | cons c htrace hev hstep hG ih =>
      obtain ⟨-, -, -, h⟩ := World.step_cpu hev hstep s
      cases h with
      | other htgt hact hcpu hmessages =>
        rw [hcpu]
        exact ih
      | own hold hprocess hleaves hnew =>
        refine (cpuProcessEvent_processed hprocess).readersGo ih (hG _ ?_)
        exact if_pos rfl
  exact hgo _ hwaits (by simp [CpuListItem.reads])

/-- Both readers wait for the writer. -/
theorem rwlock_readers_wait_blocked : ∃ W tr,
    World.Trace rwJobs rwConf (ReadersStartTogether () 0) rwWorld W tr ∧
      .lock .read 0 .reading ∈ (W.servers ()).cpu.waiting .read 0 ∧
        ((W.servers ()).cpu.table.rw 0).1 = 0 := by
  obtain ⟨W, tr, htrace, hseen⟩ := World.Trace.of_retrace rwJobs rwConf rwWorld
    (ReadersStartTogether () 0) (jobChoices rwBlocked)
    (fun W => decide (.lock .read 0 .reading ∈ (W.servers ()).cpu.waiting .read 0))
    (by decide +kernel)
  have hwaits := of_decide_eq_true hseen
  exact ⟨W, tr, htrace, hwaits, rwlock_readers_wait rwWorld_fresh () 0 htrace .reading hwaits⟩

/-- The writer gives the lock back, and one of the readers reads; the other goes on waiting. -/
theorem reader_waits_for_reader : ∃ W tr,
    World.Trace rwJobs rwConf (fun _ => True) rwWorld W tr ∧
      .lock .read 0 .reading ∈ (W.servers ()).cpu.waiting .read 0 ∧
        ((W.servers ()).cpu.table.rw 0).1 = 1 := by
  obtain ⟨W, tr, htrace, hseen⟩ := World.Trace.of_retrace rwJobs rwConf rwWorld
    (fun _ => True) (jobChoices (rwBlocked ++ [(0, 5)]))
    (fun W => decide (.lock .read 0 .reading ∈ (W.servers ()).cpu.waiting .read 0 ∧
      ((W.servers ()).cpu.table.rw 0).1 = 1)) (by decide +kernel)
  exact ⟨W, tr, htrace, of_decide_eq_true hseen⟩

end CCSim
