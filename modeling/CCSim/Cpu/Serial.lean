/-
# One core means serial execution

With one core the CPU is a sequential server (`Lib/Sequential.lean`): while a chain of handlers is
under way its core is busy, except within a single event, so nothing else gets to run; and if every
chain gives back its locks before it ends and asks for none that it already holds, the locks it
asks for are free.  So no lock message is ever blocked, no `CPU_EVENT` is scheduled, and the CPU
queue is the line of the events that arrived (`cpu_serial`).

A handler that is granted a lock and gives it back at its own end, as all handlers of the
repository do, is the simplest case: its chain holds nothing when it asks for the next lock.
-/
import CCSim.Cpu.Mutex
import CCSim.Lib.Sequential

namespace CCSim

variable {S K E σ κ χ : Type}

/-! ## 1. The locks of one chain -/

/-- A lock that cannot be granted because of the locks in `held`. -/
def Obstructs (held : Multiset (Mode × ℕ)) : Mode → ℕ → Prop
  | .mutex, id => (.mutex, id) ∈ held
  | .read, id => (.write, id) ∈ held
  | .write, id => (.write, id) ∈ held ∨ (.read, id) ∈ held

instance (held : Multiset (Mode × ℕ)) : (m : Mode) → (id : ℕ) → Decidable (Obstructs held m id)
  | .mutex, id => inferInstanceAs (Decidable ((.mutex, id) ∈ held))
  | .read, id => inferInstanceAs (Decidable ((.write, id) ∈ held))
  | .write, id => inferInstanceAs (Decidable ((.write, id) ∈ held ∨ (.read, id) ∈ held))

/-- A handler of a chain that holds `held` ends well: the chain ends without a lock, asks for none
that it keeps from itself, and gives back what it holds. -/
def Cont.ReleasesLocks (held : Multiset (Mode × ℕ)) : Cont E → Prop
  | .done => held = 0
  | .lock m id _ => ¬Obstructs held m id
  | .unlock m id e => (m, id) ∈ held ∧ (e.isNone → held.erase (m, id) = 0)

instance (held : Multiset (Mode × ℕ)) : (cont : Cont E) → Decidable (cont.ReleasesLocks held)
  | .done => inferInstanceAs (Decidable (held = 0))
  | .lock m id _ => inferInstanceAs (Decidable (¬Obstructs held m id))
  | .unlock m id e => inferInstanceAs (Decidable ((m, id) ∈ held ∧
      (e.isNone → held.erase (m, id) = 0)))

/-- Every chain gives back the locks it took. -/
def ReleasesLocks (r : Record S K (Chained E) σ κ) : Prop :=
  ∀ x ∈ r.call?, x.2.2.ReleasesLocks x.2.1.held

instance : DecidablePred (ReleasesLocks (S := S) (K := K) (E := E) (σ := σ) (κ := κ)) :=
  fun r => inferInstanceAs (Decidable (∀ x ∈ r.call?, x.2.2.ReleasesLocks x.2.1.held))

/-- What the table shows of a read-write lock with `r` readers and `w` writers. -/
def Shows (rw : ℕ × Bool) (r w : ℕ) : Prop :=
  rw.1 = r ∧ w = (if rw.2 ∧ rw.1 = 0 then 1 else 0) ∧ (rw.1 ≠ 0 → rw.2 = true)

/-- The table shows these locks, and no others, as held. -/
structure LockTable.Holds (tb : LockTable) (held : Multiset (Mode × ℕ)) : Prop where
  mutex : ∀ id, held.count (.mutex, id) = if tb.mutex id then 1 else 0
  rw : ∀ id, Shows (tb.rw id) (held.count (.read, id)) (held.count (.write, id))

theorem LockTable.Holds.free {tb : LockTable} (hmutex : ∀ id, tb.mutex id = false)
    (hrw : ∀ id, tb.rw id = (0, false)) : tb.Holds 0 where
  mutex id := by simp [hmutex]
  rw id := by simp [hrw, Shows]

/-- The locks in `held` are in the way exactly if the table cannot grant the lock. -/
theorem LockTable.Holds.grant?_eq_none {tb : LockTable} {held : Multiset (Mode × ℕ)}
    (h : tb.Holds held) (m : Mode) (id : ℕ) : tb.grant? m id = none ↔ Obstructs held m id := by
  obtain ⟨hr, hw, hflag⟩ := h.rw id
  cases m with
  | mutex =>
    simp only [Obstructs, ← Multiset.count_pos, h.mutex, LockTable.grant?]
    cases tb.mutex id <;> simp
  | read =>
    simp only [Obstructs, ← Multiset.count_pos, hw, LockTable.grant?]
    cases (tb.rw id).2 <;> by_cases h0 : (tb.rw id).1 = 0 <;> simp [h0]
  | write =>
    simp only [Obstructs, ← Multiset.count_pos, hw, ← hr, LockTable.grant?]
    cases hf : (tb.rw id).2 <;> by_cases h0 : (tb.rw id).1 = 0
    · simp [h0]
    · exact absurd (hflag h0) (by simp [hf])
    · simp [h0]
    · simp only [if_true, h0, and_false, if_false, true_iff]
      exact .inr (Nat.pos_of_ne_zero h0)

theorem Shows.reader {rw : ℕ × Bool} {r w : ℕ} (h : Shows rw r w)
    (hfree : ¬(rw.2 && rw.1 == 0) = true) :
    Shows (rw.1 + 1, if rw.1 + 1 = 1 then true else rw.2) (r + 1) w := by
  obtain ⟨rfl, hw, hflag⟩ := h
  cases hf : rw.2 <;> by_cases h0 : rw.1 = 0 <;> simp_all [Shows]

theorem Shows.writer {rw : ℕ × Bool} {r w : ℕ} (h : Shows rw r w) (hfree : rw.2 = false) :
    Shows (rw.1, true) r (w + 1) := by
  obtain ⟨rfl, hw, hflag⟩ := h
  by_cases h0 : rw.1 = 0 <;> simp_all [Shows]

theorem Shows.lastReader {rw : ℕ × Bool} {r w : ℕ} (h : Shows rw r w) (h1 : rw.1 = 1) :
    Shows (0, false) (r - 1) w := by
  obtain ⟨rfl, hw, hflag⟩ := h
  simp_all [Shows]

theorem Shows.lessReader {rw : ℕ × Bool} {r w : ℕ} (h : Shows rw r w) (h1 : rw.1 - 1 ≠ 0) :
    Shows (rw.1 - 1, rw.2) (r - 1) w := by
  obtain ⟨rfl, hw, hflag⟩ := h
  have h0 : rw.1 ≠ 0 := by omega
  refine ⟨rfl, ?_, fun _ => hflag h0⟩
  rw [hw, if_neg (fun h => h0 h.2), if_neg (fun h => h1 h.2)]

theorem Shows.lastWriter {rw : ℕ × Bool} {r w : ℕ} (h : Shows rw r w) (hpos : 0 < w) :
    Shows (rw.1, false) r (w - 1) := by
  obtain ⟨rfl, hw, hflag⟩ := h
  split at hw <;> rename_i hc
  · simp [Shows, hw, hc.2]
  · omega

/-- Taking a lock adds the one reader or writer it is taken by. -/
theorem LockTable.grant?_shows {tb tb' : LockTable} {m : Mode} {id : ℕ}
    (hg : tb.grant? m id = some tb') {i r w : ℕ} (h : Shows (tb.rw i) r w) :
    Shows (tb'.rw i) (r + if (.read, i) = (m, id) then 1 else 0)
      (w + if (.write, i) = (m, id) then 1 else 0) := by
  by_cases hi : i = id
  · subst hi
    cases m <;> simp only [LockTable.grant?] at hg <;> split at hg <;>
      simp only [Option.some.injEq, reduceCtorEq] at hg <;> rename_i hfree <;> subst hg
    · simpa using h
    · simpa using h.reader hfree
    · simpa using h.writer (by simpa using hfree)
  · have hsame : tb'.rw i = tb.rw i := by
      cases m <;> simp only [LockTable.grant?] at hg <;> split at hg <;>
        simp only [Option.some.injEq, reduceCtorEq] at hg <;> subst hg <;> simp [hi]
    simpa [hsame, hi] using h

/-- Giving a lock back takes it away. -/
theorem LockTable.release?_shows {tb tb' : LockTable} {m : Mode} {id : ℕ}
    (hr : tb.release? m id = some tb') {i r w : ℕ} (h : Shows (tb.rw i) r w)
    (hheld : (.write, i) = (m, id) → 0 < w) :
    Shows (tb'.rw i) (r - if (.read, i) = (m, id) then 1 else 0)
      (w - if (.write, i) = (m, id) then 1 else 0) := by
  by_cases hi : i = id
  · subst hi
    cases m with
    | mutex =>
      simp only [LockTable.release?] at hr
      split at hr <;> simp only [Option.some.injEq, reduceCtorEq] at hr
      subst hr
      simpa using h
    | read =>
      simp only [LockTable.release?] at hr
      repeat' split at hr
      all_goals simp only [Option.some.injEq, reduceCtorEq] at hr
      all_goals subst hr
      all_goals simp only [Function.update_self]
      · simpa using h.lastReader (by omega)
      · simpa using h.lessReader (by assumption)
    | write =>
      simp only [LockTable.release?] at hr
      split at hr <;> simp only [Option.some.injEq, reduceCtorEq] at hr
      subst hr
      simpa using h.lastWriter (hheld rfl)
  · have hsame : tb'.rw i = tb.rw i := by
      cases m <;> simp only [LockTable.release?] at hr
      all_goals repeat' split at hr
      all_goals simp only [Option.some.injEq, reduceCtorEq] at hr
      all_goals subst hr; simp [hi]
    simpa [hsame, hi] using h

/-- Taking one lock changes one count. -/
theorem LockTable.Holds.granted {tb tb' : LockTable} {held : Multiset (Mode × ℕ)}
    (h : tb.Holds held) {m : Mode} {id : ℕ} (hg : tb.grant? m id = some tb') :
    tb'.Holds ((m, id) ::ₘ held) := by
  have hmutex := LockTable.grant?_mutex hg
  refine ⟨fun i => ?_, fun i => ?_⟩
  · have := hmutex i
    rw [Multiset.count_cons, h.mutex i]
    by_cases hc : m = .mutex ∧ i = id
    · rw [if_pos hc] at this
      rw [← hc.2, hc.1, this.1, this.2, if_pos rfl]
      rfl
    · rw [if_neg hc] at this
      rw [this, if_neg fun h => hc ⟨(Prod.mk.inj h).1.symm, (Prod.mk.inj h).2⟩, add_zero]
  · rw [Multiset.count_cons, Multiset.count_cons]
    exact LockTable.grant?_shows hg (h.rw i)

/-- Giving one lock back changes one count. -/
theorem LockTable.Holds.released {tb tb' : LockTable} {held : Multiset (Mode × ℕ)}
    (h : tb.Holds held) {m : Mode} {id : ℕ} (hheld : (m, id) ∈ held)
    (hr : tb.release? m id = some tb') : tb'.Holds (held.erase (m, id)) := by
  have hmutex := LockTable.release?_mutex hr
  have hcount : ∀ x, (held.erase (m, id)).count x =
      held.count x - if x = (m, id) then 1 else 0 := by
    intro x
    by_cases hx : x = (m, id)
    · rw [hx, Multiset.count_erase_self, if_pos rfl]
    · rw [Multiset.count_erase_of_ne hx, if_neg hx, Nat.sub_zero]
  refine ⟨fun i => ?_, fun i => ?_⟩
  · have := hmutex i
    by_cases hc : m = .mutex ∧ i = id
    · rw [if_pos hc] at this
      rw [hc.1, hc.2, Multiset.count_erase_self, h.mutex, ← hc.2, this.1, this.2]
      rfl
    · rw [if_neg hc] at this
      rw [Multiset.count_erase_of_ne fun h => hc ⟨(Prod.mk.inj h).1.symm, (Prod.mk.inj h).2⟩,
        h.mutex i, this]
  · rw [hcount, hcount]
    refine LockTable.release?_shows hr (h.rw i) fun hi => ?_
    rw [hi]
    exact Multiset.count_pos.mpr hheld

/-! ## 2. The CPU as a sequential server -/

/-- The message `ev` with which a chain that holds `held` is under way, and goes on with `next`. -/
inductive Underway (held : Multiset (Mode × ℕ)) :
    CpuEvent (Chained E) → Option (Chained E) → Prop
  | freeCore (h : held = 0) : Underway held .freeCore none
  | lock {m : Mode} {id : ℕ} {e : Chained E} (h : ¬Obstructs held m id)
      (he : e.held = (m, id) ::ₘ held) : Underway held (.lock m id e) (some e)
  | unlock {m : Mode} {id : ℕ} {e : Option (Chained E)} (h : (m, id) ∈ held)
      (he : ∀ e' ∈ e, e'.held = held.erase (m, id)) (hend : e.isNone → held.erase (m, id) = 0) :
      Underway held (.unlock m id e) e

/-- The locks a chain holds after its message gave back what it gives back. -/
def CpuEvent.left (held : Multiset (Mode × ℕ)) : CpuEvent E → Multiset (Mode × ℕ)
  | .unlock m id _ => held.erase (m, id)
  | _ => held

/-- The CPU of `s` is in the state of the sequential server `q`: what waits there waits in its
queue, and the message of the chain that is under way there is the only one pending. -/
structure World.Serial [DecidableEq S] (W : World S K (Chained E) σ κ) (s : S)
    (q : Sequential (Chained E)) : Prop where
  cores : (W.servers s).cpu.cores = 1
  busy : (W.servers s).cpu.busyCores = if q.chain.isSome then 1 else 0
  queue : (W.servers s).cpu.queue = q.waiting.map .event
  waiting : ∀ m id, (W.servers s).cpu.waiting m id = []
  started : ∀ e ∈ q.waiting, e.held = 0
  chain : match q.chain with
    | none => q.waiting = [] ∧ W.messages s = 0 ∧ (W.servers s).cpu.table.Holds 0
    | some n => ∃ t ev held, W.messages s = {(t, ev)} ∧ Underway held ev n ∧
        (W.servers s).cpu.table.Holds held

/-- At the start no lock is held. -/
theorem CpuState.Fresh.holds {E : Type} {cpu : CpuState E} (h : cpu.Fresh) :
    cpu.table.Holds 0 := by
  refine .free (fun id => ?_) fun id => ?_
  · simp only [CpuState.table]
    cases hl : cpu.locks[id]? with
    | none => rfl
    | some l => rw [h.locks l (List.mem_of_getElem? hl)]
  · simp only [CpuState.table]
    cases hl : cpu.rwlocks[id]? with
    | none => rfl
    | some l => rw [h.rwlocks l (List.mem_of_getElem? hl)]

/-- Nothing waits at a lock, so nothing is woken. -/
theorem Freed.quiet {E : Type} {cpu c : CpuState E} {ev : CpuEvent E} (h : Freed cpu ev c)
    (hwaiting : ∀ m id, cpu.waiting m id = []) :
    (∀ m id, c.waiting m id = []) ∧ c.queue = cpu.queue := by
  constructor
  · intro m id
    by_cases hev : ∃ m' e, ev = .unlock m' id e ∧ m'.Same m
    · obtain ⟨m', e, hev, hsame⟩ := hev
      have := h.woken hev hsame
      rw [hwaiting] at this
      exact (List.append_eq_nil_iff.mp this.symm).2
    · rw [h.kept fun m' e hev' hsame => hev ⟨m', e, hev', hsame⟩, hwaiting]
  · rw [h.queue]
    cases ev with
    | unlock m id e =>
      have hnone : cpu.waiter m id = none := by
        cases m <;> simp [CpuState.waiter, hwaiting]
      rw [CpuState.line, hnone]
      rfl
    | _ => rfl

/-- After its message, a chain holds what is left to it. -/
theorem Underway.freed {held : Multiset (Mode × ℕ)} {cpu c : CpuState (Chained E)}
    {ev : CpuEvent (Chained E)} {n : Option (Chained E)} (h : Underway held ev n)
    (hc : Freed cpu ev c) (htable : cpu.table.Holds held) : c.table.Holds (ev.left held) := by
  have hfreed := hc.table
  cases h with
  | freeCore => rw [hfreed]; exact htable
  | lock => rw [hfreed]; exact htable
  | unlock h => exact htable.released h hfreed

/-- A chain that brings nothing to the CPU is over, and holds nothing any more. -/
theorem Underway.over {held : Multiset (Mode × ℕ)} {ev : CpuEvent (Chained E)}
    {n : Option (Chained E)} (h : Underway held ev n) (hown : ev.own = none) :
    n = none ∧ ev.left held = 0 := by
  cases h with
  | freeCore h => exact ⟨rfl, h⟩
  | lock => cases hown
  | unlock h he hend =>
    obtain rfl : n = none := by simpa [CpuEvent.own] using hown
    exact ⟨rfl, hend rfl⟩

/-- What a chain brings to the CPU runs at once, with the lock it asks for. -/
theorem Underway.took {held : Multiset (Mode × ℕ)} {ev : CpuEvent (Chained E)}
    {n : Option (Chained E)} {x : CpuListItem (Chained E)} {c cpu' : CpuState (Chained E)}
    {d : Dispatch (Chained E)} (h : Underway held ev n) (hown : ev.own = some x)
    (hx : Took c x cpu' d) (htable : c.table.Holds (ev.left held)) :
    ∃ e, n = some e ∧ d = .run e ∧ cpu'.waiting = c.waiting ∧ cpu'.table.Holds e.held := by
  cases h with
  | freeCore h => cases hown
  | @lock m id e hfree he =>
    cases hown
    cases hx with
    | granted _ _ hgrant _ _ _ hwaiting =>
      refine ⟨e, rfl, rfl, hwaiting, ?_⟩
      rw [he]
      exact htable.granted hgrant
    | blocked _ hgrant => exact absurd ((htable.grant?_eq_none m id).mp hgrant) hfree
  | @unlock m id e h he hend =>
    obtain ⟨e', rfl, rfl⟩ := Option.map_eq_some_iff.mp hown
    cases hx
    refine ⟨e', rfl, rfl, waiting_busyCores _ _, ?_⟩
    rw [he e' rfl]
    exact htable

theorem Underway.cores {held : Multiset (Mode × ℕ)} {ev : CpuEvent (Chained E)}
    {n : Option (Chained E)} (h : Underway held ev n) : ev.cores = 1 := by
  cases h <;> rfl

/-- The message in which a handler ends keeps its chain under way. -/
theorem Cont.ReleasesLocks.underway {held : Multiset (Mode × ℕ)} {cont : Cont E}
    (h : (cont.follow held).ReleasesLocks held) :
    Underway held (cont.follow held).message (cont.follow held).event? := by
  cases cont with
  | done => exact .freeCore h
  | lock m id e => exact .lock h rfl
  | unlock m id e =>
    refine .unlock h.1 ?_ h.2
    rintro e' he'
    obtain ⟨e'', -, rfl⟩ := Option.mem_map.mp he'
    rfl

section Trace

variable [DecidableEq S]

/-- What arrives at `s` from outside its CPU. -/
def Record.arrival? (s : S) (r : Record S K E σ κ) : Option E :=
  match r.target with
  | .server s' (.user e) => if s' = s then some e else none
  | _ => none

/-- The handler call of `s`. -/
def Record.callAt? (s : S) (r : Record S K E σ κ) : Option (Call E) :=
  r.call?.bind fun x => if x.1 = s then some ⟨x.2.1, x.2.2.event?⟩ else none

variable {P : Program S K E σ κ χ} {W W' : World S K (Chained E) σ κ} {s : S} {t : ℚ}
  {tgt : Target S K (Chained E)} {a : Option (Act S K (Chained E) σ κ)}
  {q : Sequential (Chained E)}

/-- A handler that runs puts its chain under way. -/
theorem Leaves.underway {st : σ} {e : Chained E} {new : Multiset (ℚ × CpuEvent (Chained E))}
    (h : Leaves P.chained s t st (.run e) a new) (hG : ReleasesLocks ⟨W, t, tgt, a⟩) :
    ∃ t' ev n, new = {(t', ev)} ∧ Underway e.held ev n ∧
      (⟨W, t, tgt, a⟩ : Record S K _ σ κ).callAt? s = some ⟨e, n⟩ := by
  cases h with
  | @run _ r t' hr ht =>
    obtain ⟨r', -, rfl⟩ := Option.map_eq_some_iff.mp hr
    have hends := hG (s, e, r'.cont.follow e.held) rfl
    exact ⟨t', _, _, rfl, Cont.ReleasesLocks.underway hends, if_pos rfl⟩

omit [DecidableEq S] in
theorem eq_of_singleton_eq_add {α : Type} {x y : α} {r : Multiset α}
    (h : ({x} : Multiset α) = {y} + r) : x = y ∧ r = 0 := by
  have hc := congrArg Multiset.card h
  simp only [Multiset.card_singleton, Multiset.card_add] at hc
  obtain rfl : r = 0 := Multiset.card_eq_zero.mp (by omega)
  exact ⟨Multiset.singleton_inj.mp (by simpa using h), rfl⟩

omit [DecidableEq S] in
/-- An idle dispatch calls no handler and leaves no message. -/
theorem Leaves.eq_none {st : σ} {new : Multiset (ℚ × CpuEvent E)} {P : Program S K E σ κ χ}
    {a : Option (Act S K E σ κ)} (h : Leaves P s t st .idle a new) : a = none ∧ new = 0 := by
  cases h
  exact ⟨rfl, rfl⟩

/-- An event that arrives starts a chain, or waits while one is under way. -/
theorem World.Serial.arrives {e : Chained E} {d : Dispatch (Chained E)}
    {new : Multiset (ℚ × CpuEvent (Chained E))} (hW : W.Serial s q) (he : e.held = 0)
    (hprocess : cpuProcessEvent (W.servers s).cpu (.user e) = some ((W'.servers s).cpu, d))
    (hleaves : Leaves P.chained s t (W.servers s).state d a new)
    (hmessages : W'.messages s = W.messages s + new) (hG : ReleasesLocks ⟨W, t, tgt, a⟩) :
    ∃ q', Sequential.Step q (some e) ((⟨W, t, tgt, a⟩ : Record S K _ σ κ).callAt? s) q' ∧
      W'.Serial s q' := by
  obtain ⟨w, c⟩ := q
  obtain ⟨hcores, hbusy, hqueue, hwaiting, hstarted, hchain⟩ := hW
  rcases cpuProcessEvent_user hprocess with ⟨hfull, hcpu, rfl⟩ | ⟨hfree, hcpu, rfl⟩
  · obtain ⟨rfl, rfl⟩ := hleaves.eq_none
    rw [add_zero] at hmessages
    cases c with
    | none =>
      simp only [Option.isSome_none, Bool.false_eq_true, if_false] at hbusy
      omega
    | some n =>
      refine ⟨_, .queue w n e, ?_⟩
      refine ⟨by rw [hcpu]; exact hcores, by rw [hcpu]; exact hbusy, ?_, ?_, ?_, ?_⟩
      · rw [hcpu, List.map_append]
        exact congrArg (· ++ _) hqueue
      · rw [hcpu, waiting_queue]
        exact hwaiting
      · simpa [or_imp, forall_and, he] using hstarted
      · rw [hcpu, hmessages]
        exact hchain
  · cases c with
    | some n =>
      simp only [Option.isSome_some, if_true] at hbusy
      omega
    | none =>
      obtain ⟨rfl, hzero, htable⟩ := hchain
      obtain ⟨t', ev, n, rfl, hev, hcall⟩ := hleaves.underway hG
      rw [hcall]
      refine ⟨_, .start e n, ?_⟩
      refine ⟨by rw [hcpu]; exact hcores, ?_, by rw [hcpu]; exact hqueue, ?_, by simp, ?_⟩
      · rw [hcpu]
        simpa using hbusy
      · rw [hcpu, waiting_busyCores]
        exact hwaiting
      · rw [hcpu, hmessages, hzero, zero_add]
        exact ⟨t', ev, e.held, rfl, hev, he ▸ htable⟩

/-- The message of a chain takes it on, or ends it; then the next chain starts, or the CPU
rests. -/
theorem World.Serial.goesOn {ev : CpuEvent (Chained E)} {d : Dispatch (Chained E)}
    {rest new : Multiset (ℚ × CpuEvent (Chained E))} (hW : W.Serial s q)
    (hev : ∀ e, ev ≠ .user e) (hold : W.messages s = {(t, ev)} + rest)
    (hprocess : cpuProcessEvent (W.servers s).cpu ev = some ((W'.servers s).cpu, d))
    (hleaves : Leaves P.chained s t (W.servers s).state d a new)
    (hmessages : W'.messages s = rest + new) (hG : ReleasesLocks ⟨W, t, tgt, a⟩) :
    ∃ q', Sequential.Step q none ((⟨W, t, tgt, a⟩ : Record S K _ σ κ).callAt? s) q' ∧
      W'.Serial s q' := by
  obtain ⟨w, c⟩ := q
  obtain ⟨hcores, hbusy, hqueue, hwaiting, hstarted, hchain⟩ := hW
  cases c with
  | none =>
    rw [hchain.2.1] at hold
    exact absurd (congrArg Multiset.card hold) (by simp)
  | some n =>
    obtain ⟨t', ev', held, hm, hunder, htable⟩ := hchain
    obtain ⟨heq, rfl⟩ := eq_of_singleton_eq_add (hm.symm.trans hold)
    cases heq
    rw [zero_add] at hmessages
    simp only [Option.isSome_some, if_true] at hbusy
    have hp := cpuProcessEvent_processed hprocess
    obtain ⟨hcores', hbusy', -⟩ := hp.busy
    generalize hcpu : (W'.servers s).cpu = cpu' at hp hcores' hbusy'
    rw [hunder.cores] at hbusy'
    -- whatever runs next, runs on the one core, and nothing waits at a lock
    have key : ∀ {x : Chained E} {w' : List (Chained E)}, d = .run x →
        cpu'.queue = w'.map .event → (∀ e ∈ w', e.held = 0) →
        (∀ m id, cpu'.waiting m id = []) → cpu'.table.Holds x.held →
        ∃ n', (⟨W, t, tgt, a⟩ : Record S K _ σ κ).callAt? s = some ⟨x, n'⟩ ∧
          W'.Serial s ⟨w', some n'⟩ := by
      rintro x w' rfl hq hst hwait htab
      obtain ⟨t', ev', n', rfl, hev', hcall⟩ := hleaves.underway hG
      refine ⟨n', hcall, ⟨?_, ?_, ?_, ?_, hst, t', ev', x.held, hmessages, hev', ?_⟩⟩
      · rw [hcpu, hcores', hcores]
      · simp only [Dispatch.cores] at hbusy'
        rw [hcpu]
        simp only [Option.isSome_some, if_true]
        omega
      · rw [hcpu, hq]
      · rw [hcpu]
        exact hwait
      · rw [hcpu]
        exact htab
    cases hp with
    | queued e he => exact absurd he (hev e)
    | idle hc hown hempty =>
      obtain ⟨rfl, hleft⟩ := hunder.over hown
      obtain ⟨hwait, hq⟩ := hc.quiet hwaiting
      obtain ⟨rfl, rfl⟩ := hleaves.eq_none
      obtain rfl : w = [] := by
        rw [hempty, hqueue] at hq
        exact List.map_eq_nil_iff.mp hq.symm
      refine ⟨_, .rest, ⟨?_, ?_, ?_, ?_, by simp, rfl, hmessages, ?_⟩⟩
      · rw [hcpu, hcores', hcores]
      · simp only [Dispatch.cores] at hbusy'
        rw [hcpu]
        simp only [Option.isSome_none, Bool.false_eq_true, if_false]
        omega
      · rw [hcpu, hempty]
        rfl
      · rw [hcpu]
        exact hwait
      · rw [hcpu, ← hleft]
        exact hunder.freed hc htable
    | own hc hown hx =>
      obtain ⟨hwait, hq⟩ := hc.quiet hwaiting
      obtain ⟨-, hq', -⟩ := hx.counts
      obtain ⟨e, rfl, hd, hwait', htab⟩ := hunder.took hown hx (hunder.freed hc htable)
      obtain ⟨n', hcall, hserial⟩ := key hd (hq'.trans (hq.trans hqueue)) hstarted
        (by rw [hwait']; exact hwait) htab
      rw [hcall]
      exact ⟨_, .goOn w e n', hserial⟩
    | @next c _ x q _ hc hown hne hx =>
      obtain ⟨rfl, hleft⟩ := hunder.over hown
      obtain ⟨hwait, hq⟩ := hc.quiet hwaiting
      have htab := hunder.freed hc htable
      rw [hne, hqueue] at hq
      obtain ⟨e, w', rfl, rfl, rfl⟩ := List.map_eq_cons_iff.mp hq.symm
      cases hx with
      | event _ hfree =>
        have he : e.held = 0 := hstarted e (List.mem_cons_self)
        obtain ⟨n', hcall, hserial⟩ := key rfl rfl
          (fun e' he' => hstarted e' (List.mem_cons_of_mem _ he'))
          (by rw [waiting_busyCores, waiting_queue]; exact hwait)
          (by rw [he, ← hleft]; exact htab)
        rw [hcall]
        exact ⟨_, .next w' e n', hserial⟩

/-- **The step lemma.**  A step of the CPU is a step of the sequential server, and events of
others are none. -/
theorem World.CpuStep.serial (h : World.CpuStep P.chained W s t tgt a W') (hW : W.Serial s q)
    (hG : ReleasesLocks ⟨W, t, tgt, a⟩) (hnew : ∀ e, tgt = .server s (.user e) → e.held = 0) :
    (∃ q', Sequential.Step q ((⟨W, t, tgt, a⟩ : Record S K _ σ κ).arrival? s)
      ((⟨W, t, tgt, a⟩ : Record S K _ σ κ).callAt? s) q' ∧ W'.Serial s q') ∨
    ((⟨W, t, tgt, a⟩ : Record S K _ σ κ).arrival? s = none ∧
      (⟨W, t, tgt, a⟩ : Record S K _ σ κ).callAt? s = none ∧ W'.Serial s q) := by
  cases h with
  | other htgt hact hcpu hmessages =>
    right
    refine ⟨?_, ?_, ?_⟩
    · rcases tgt with ⟨s', ev⟩ | ⟨k, e⟩
      · cases ev with
        | user e =>
          refine if_neg ?_
          rintro rfl
          exact htgt _ rfl
        | _ => rfl
      · rfl
    · rcases a with _ | ⟨s', t', e, st, r⟩ | _
      · rfl
      · refine if_neg ?_
        rintro rfl
        exact hact t' e st r rfl
      · rfl
    · obtain ⟨hcores, hbusy, hqueue, hwaiting, hstarted, hchain⟩ := hW
      exact ⟨hcpu ▸ hcores, hcpu ▸ hbusy, hcpu ▸ hqueue, hcpu ▸ hwaiting, hstarted,
        by rw [hcpu, hmessages]; exact hchain⟩
  | @own ev _ _ d rest new hold hprocess hleaves hnew' =>
    left
    by_cases huser : ∃ e, ev = .user e
    · obtain ⟨e, rfl⟩ := huser
      have harr : (⟨W, t, .server s (.user e), a⟩ : Record S K _ σ κ).arrival? s = some e :=
        if_pos rfl
      rw [harr]
      refine hW.arrives (hnew e rfl) hprocess hleaves ?_ hG
      rw [hnew', hold, CpuEvent.message, zero_add]
    · have hev : ∀ e, ev ≠ .user e := fun e he => huser ⟨e, he⟩
      have harr : (⟨W, t, .server s ev, a⟩ : Record S K _ σ κ).arrival? s = none := by
        cases ev with
        | user e => exact absurd rfl (hev e)
        | _ => rfl
      have hmessage : ev.message t = {(t, ev)} := by
        cases ev with
        | user e => exact absurd rfl (hev e)
        | _ => rfl
      rw [harr]
      exact hW.goesOn hev (hmessage ▸ hold) hprocess hleaves hnew' hG

/-! ## 3. One core -/

variable [DecidableEq K] [Fintype S] {conf : SimConfig S K E} {W₀ : World S K E σ κ}
  {tr : List (Record S K (Chained E) σ κ)}

theorem toList_append_filterMap {α β : Type} (f : α → Option β) (x : α) (l : List α) :
    (x :: l).filterMap f = (f x).toList ++ l.filterMap f := by
  rw [List.filterMap_cons]
  cases f x <;> rfl

/-- **The run lemma.**  A run of the CPU is a run of the sequential server. -/
theorem World.Trace.serial (hfresh : W₀.Fresh) (hone : (W₀.servers s).cpu.cores = 1)
    (htrace : World.Trace P.chained conf.chained ReleasesLocks W₀.chained W tr) :
    ∃ q, Sequential.Run (tr.filterMap (Record.arrival? s)) (tr.filterMap (Record.callAt? s)) q ∧
      W.Serial s q := by
  induction htrace with
  | nil =>
    have hcpu := (hfresh.chained s).1
    refine ⟨.atRest, .nil, hone, hcpu.busy, hcpu.queue, hcpu.waiting, by simp [Sequential.atRest],
      rfl, (hfresh.chained s).2, hcpu.holds⟩
  | @cons W W' tr t tgt a c htrace hev hstep hG ih =>
    obtain ⟨q, hrun, hserial⟩ := ih
    obtain ⟨-, -, -, h⟩ := World.step_cpu hev hstep s
    have hplaced := htrace.placed hfresh
    have hnew : ∀ e, tgt = .server s (.user e) → e.held = 0 := by
      rintro e rfl
      exact hplaced (.pending s e) (World.event_mem_pool (List.mem_of_getElem? hev) rfl)
    rw [toList_append_filterMap, toList_append_filterMap]
    rcases h.serial hserial hG hnew with ⟨q', hstep', hserial'⟩ | ⟨harr, hcall, hserial'⟩
    · exact ⟨q', hrun.cons hstep', hserial'⟩
    · rw [harr, hcall]
      exact ⟨q, hrun, hserial'⟩

/-- **One core means serial execution.**  On a server with one core no lock message is ever
blocked and no `CPU_EVENT` is scheduled.  What arrives and which handlers are called is what a
sequential server does, whose line is the CPU queue and whose chain is over when the core is
free: a chain is taken to its end before another starts, and chains start in order of arrival. -/
theorem cpu_serial (hfresh : W₀.Fresh) (hone : (W₀.servers s).cpu.cores = 1)
    (htrace : World.Trace P.chained conf.chained ReleasesLocks W₀.chained W tr) :
    (∀ t, (t, .server s .event) ∉ W.events) ∧ (∀ m id, (W.servers s).cpu.waiting m id = []) ∧
    ∃ q, Sequential.Run (tr.filterMap (Record.arrival? s)) (tr.filterMap (Record.callAt? s)) q ∧
      (W.servers s).cpu.queue = q.waiting.map .event ∧
      ((W.servers s).cpu.busyCores = 0 ↔ q.chain = none) ∧
      (tr.filterMap (Record.callAt? s)).IsChain Call.Follows ∧
      tr.filterMap (Record.arrival? s) =
        q.waiting.reverse ++ starts (tr.filterMap (Record.callAt? s)) := by
  obtain ⟨q, hrun, hserial⟩ := htrace.serial hfresh hone
  refine ⟨fun t hev => ?_, hserial.waiting, q, hrun, hserial.queue, ?_, hrun.chains,
    hrun.inOrder⟩
  · have hmem : (t, .event) ∈ W.messages s := World.mem_messages.mpr ⟨hev, by simp⟩
    have hchain := hserial.chain
    split at hchain
    · rw [hchain.2.1] at hmem
      cases hmem
    · obtain ⟨t', ev, held, hm, hunder, -⟩ := hchain
      rw [hm, Multiset.mem_singleton] at hmem
      cases hmem
      cases hunder
  · rw [hserial.busy]
    cases q.chain <;> simp

end Trace

/-- The same jobs on one core. -/
def serialWorld : World Unit Unit LockingJob Unit Unit :=
  { jobsWorld with servers := fun _ => { state := (), cpu := { cores := 1, locks := [{}] } } }

theorem serialWorld_fresh : serialWorld.Fresh := by
  refine fun s => ⟨⟨le_rfl, rfl, rfl, ?_, ?_⟩, rfl⟩
  · simp [serialWorld]
  · simp [serialWorld]

/-- The first job is done, the second has been started, and the third waits. -/
theorem cpu_serial_waiting : ∃ W tr,
    World.Trace jobs.chained jobsConf.chained ReleasesLocks serialWorld.chained W tr ∧
      (∀ t, (t, .server () .event) ∉ W.events) ∧
      ∃ q, Sequential.Run (tr.filterMap (Record.arrival? ())) (tr.filterMap (Record.callAt? ())) q ∧
        q.waiting.length = 1 ∧ q.chain ≠ none := by
  obtain ⟨W, tr, htrace, hseen⟩ := World.Trace.of_retrace jobs.chained jobsConf.chained
    serialWorld.chained ReleasesLocks
    (jobChoices [(0, 1), (0, 1), (1, 10), (0, 1), (0, 1), (0, 1)])
    (fun W => decide ((W.servers ()).cpu.queue.length = 1 ∧ (W.servers ()).cpu.busyCores ≠ 0))
    (by decide +kernel)
  obtain ⟨hlength, hbusy⟩ := of_decide_eq_true hseen
  obtain ⟨hnone, -, q, hrun, hqueue, hchain, -⟩ := cpu_serial serialWorld_fresh rfl htrace
  rw [hqueue, List.length_map] at hlength
  exact ⟨W, tr, htrace, hnone, q, hrun, hlength, fun h => hbusy (hchain.mpr h)⟩

end CCSim
