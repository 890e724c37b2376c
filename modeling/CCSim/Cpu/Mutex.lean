/-
# The simulated mutex

A lock message that finds its mutex taken goes to the queue of the mutex.  When the mutex is given
back its first waiter goes to the CPU queue, but without the mutex: another request may overtake
it, and then it waits again.  So a request can be in flight, at its mutex, or in the CPU queue,
and may change between the last two any number of times.

`mutex_exclusion` says what the mutex is for.  The handlers are those of any program whose chains
give back the mutexes they took, once each, before they end, and no others (`ReleasesMutexes`).
Then at most one chain holds the mutex, and it is locked exactly if there is one; a request is
granted only when there is none; every request made is granted, or is in exactly one place; and
if something waits at the mutex, the mutex is held or a request for it is in the CPU queue.
-/
import CCSim.Cpu.Chains

namespace CCSim

variable {S K E σ κ χ : Type}

/-! ## 1. Holders -/

/-- How often a chain that waits for the CPU or for a lock holds the mutex `id`. -/
def CpuListItem.holds (id : ℕ) : CpuListItem (Chained E) → ℕ
  | .event e => e.held.count (.mutex, id)
  | .lock m i e => (e.held.erase (m, i)).count (.mutex, id)

/-- The same for the chain of an event.  An unlock message that is pending still holds its
lock. -/
def CpuEvent.holds (id : ℕ) : CpuEvent (Chained E) → ℕ
  | .freeCore => 0
  | .event => 0
  | .lock m i e => (e.held.erase (m, i)).count (.mutex, id)
  | .unlock m i e => (if m = .mutex ∧ id = i then 1 else 0) +
      e.elim 0 fun e => e.held.count (.mutex, id)
  | .user e => e.held.count (.mutex, id)

/-- The chains of `s` that hold the mutex `id`. -/
def World.holders [DecidableEq S] (W : World S K (Chained E) σ κ) (s : S) (id : ℕ) : ℕ :=
  ((W.messages s).map fun x => x.2.holds id).sum +
    ((W.servers s).cpu.items.map (CpuListItem.holds id)).sum

/-- No mutex is among these locks. -/
def NoMutex (held : Multiset (Mode × ℕ)) : Prop := ∀ x ∈ held, x.1 ≠ .mutex

instance : DecidablePred NoMutex := fun held =>
  inferInstanceAs (Decidable (∀ x ∈ held, x.1 ≠ .mutex))

/-- A handler of a chain that holds `held` ends well: a chain gives back only a mutex it holds,
and it ends without one. -/
def Cont.ReleasesMutexes (held : Multiset (Mode × ℕ)) : Cont E → Prop
  | .done => NoMutex held
  | .lock _ _ _ => True
  | .unlock m id e => (m = .mutex → (m, id) ∈ held) ∧
      (e.isNone → NoMutex (held.erase (m, id)))

instance (held : Multiset (Mode × ℕ)) : (cont : Cont E) → Decidable (cont.ReleasesMutexes held)
  | .done => inferInstanceAs (Decidable (NoMutex held))
  | .lock _ _ _ => .isTrue trivial
  | .unlock m id e => inferInstanceAs (Decidable ((m = .mutex → (m, id) ∈ held) ∧
      (e.isNone → NoMutex (held.erase (m, id)))))

/-- The handler call of a server: on which event, and how it ended. -/
def Record.call? (r : Record S K E σ κ) : Option (S × E × Cont E) :=
  match r.act with
  | some (.server s _ e _ out) => some (s, e, out.cont)
  | _ => none

/-- Every chain gives back each mutex it took, once, and no other. -/
def ReleasesMutexes (r : Record S K (Chained E) σ κ) : Prop :=
  ∀ x ∈ r.call?, x.2.2.ReleasesMutexes x.2.1.held

instance : DecidablePred (ReleasesMutexes (S := S) (K := K) (E := E) (σ := σ) (κ := κ)) :=
  fun r => inferInstanceAs (Decidable (∀ x ∈ r.call?, x.2.2.ReleasesMutexes x.2.1.held))

/-- The mutex as a number. -/
def CpuState.lockedOnce (cpu : CpuState E) (id : ℕ) : ℕ := if cpu.table.mutex id then 1 else 0

/-- What a chain holds of the mutex while its handler runs. -/
def Dispatch.holds (id : ℕ) : Dispatch (Chained E) → ℕ
  | .idle => 0
  | .wait => 0
  | .run e => e.held.count (.mutex, id)

/-- What comes with an event, as far as it holds the mutex. -/
def CpuEvent.ownHolds (id : ℕ) (ev : CpuEvent (Chained E)) : ℕ :=
  ev.own.elim 0 (CpuListItem.holds id)

/-- An item that asks for a lock carries an event that will hold it. -/
def CpuListItem.Asks : CpuListItem (Chained E) → Prop
  | .event _ => True
  | .lock m id e => (m, id) ∈ e.held

variable {cpu cpu' c : CpuState (Chained E)} {ev : CpuEvent (Chained E)} {id : ℕ}
  {d : Dispatch (Chained E)}

theorem CpuState.items_eq_cons {E : Type} {c : CpuState E} {x : CpuListItem E}
    {q : List (CpuListItem E)} (h : c.queue = x :: q) :
    c.items = x ::ₘ ({ c with queue := q } : CpuState E).items := by
  simp only [CpuState.items, h, ← Multiset.cons_coe, Multiset.cons_add]

variable (id) in
/-- Giving a lock back takes the mutex away from its chain. -/
theorem Freed.holders (h : Freed cpu ev c) (hstart : ∀ e, ev = .user e → e.held = 0) (t : ℚ) :
    ((ev.message t).map fun x => x.2.holds id).sum + c.lockedOnce id =
      ev.ownHolds id + cpu.lockedOnce id := by
  have htable := h.table
  cases ev with
  | freeCore => simp [CpuEvent.message, CpuEvent.holds, CpuEvent.ownHolds, CpuEvent.own,
      CpuState.lockedOnce, htable]
  | event => simp [CpuEvent.message, CpuEvent.holds, CpuEvent.ownHolds, CpuEvent.own,
      CpuState.lockedOnce, htable]
  | lock m i e => simp [CpuEvent.message, CpuEvent.holds, CpuEvent.ownHolds, CpuEvent.own,
      CpuListItem.holds, CpuState.lockedOnce, htable]
  | user e => simp [CpuEvent.message, CpuEvent.ownHolds, CpuEvent.own, CpuListItem.holds,
      CpuState.lockedOnce, htable, hstart e rfl]
  | unlock m i e =>
    have hown : (CpuEvent.unlock m i e).ownHolds id =
        e.elim 0 fun e => e.held.count (.mutex, id) := by cases e <;> rfl
    have hmutex := LockTable.release?_mutex htable id
    simp only [CpuEvent.message, Multiset.map_singleton, Multiset.sum_singleton, CpuEvent.holds,
      hown, CpuState.lockedOnce]
    by_cases hc : m = .mutex ∧ id = i
    · rw [if_pos hc] at hmutex
      rw [if_pos hc, if_pos hmutex.1, hmutex.2, if_neg Bool.false_ne_true]
      omega
    · rw [if_neg hc] at hmutex
      simp only [hc, hmutex, if_false]
      omega

/-- What a chain will hold is what it holds and the lock it asks for. -/
theorem count_held {m : Mode} {i : ℕ} {e : Chained E} (h : (m, i) ∈ e.held) (id : ℕ) :
    e.held.count (.mutex, id) =
      (e.held.erase (m, i)).count (.mutex, id) + if m = .mutex ∧ id = i then 1 else 0 := by
  conv_lhs => rw [← Multiset.cons_erase h, Multiset.count_cons]
  congr 1
  simp only [Prod.mk.injEq, eq_comm]

variable (id) in
/-- Granting a lock gives the mutex to the chain, and only a free mutex is granted. -/
theorem Took.holders {x : CpuListItem (Chained E)} (h : Took c x cpu' d) (hx : x.Asks) :
    d.holds id + (cpu'.items.map (CpuListItem.holds id)).sum + c.lockedOnce id =
      x.holds id + (c.items.map (CpuListItem.holds id)).sum + cpu'.lockedOnce id := by
  cases h with
  | event e hfree => rfl
  | @granted m i e cpu' hfree hlock hgrant hcpu hhas hitems hwaiting =>
    have hmutex := LockTable.grant?_mutex hgrant id
    have hheld := count_held hx id
    simp only [Dispatch.holds, CpuListItem.holds, hitems, CpuState.lockedOnce]
    by_cases hc : m = .mutex ∧ id = i
    · rw [if_pos hc] at hmutex hheld
      simp only [hmutex, if_true, Bool.false_eq_true, if_false]
      omega
    · rw [if_neg hc] at hmutex hheld
      simp only [hmutex]
      omega
  | blocked hlock hgrant htable hcpu hhas hitems hwaiting =>
    rw [hitems, Multiset.map_cons, Multiset.sum_cons, CpuState.lockedOnce, CpuState.lockedOnce,
      htable, Dispatch.holds, Nat.zero_add]

/-- The message a handler ends with holds what its chain holds. -/
theorem follow_holds {held : Multiset (Mode × ℕ)} {cont : Cont E}
    (h : (cont.follow held).ReleasesMutexes held) (id : ℕ) :
    (cont.follow held).message.holds id = held.count (.mutex, id) := by
  cases cont with
  | done => exact (Multiset.count_eq_zero_of_notMem fun hmem => h _ hmem rfl).symm
  | lock m i e => simp [Cont.follow, Cont.message, CpuEvent.holds]
  | unlock m i e =>
    obtain ⟨hmem, hend⟩ := h
    have hrest : (e.map fun e => (⟨e, held.erase (m, i)⟩ : Chained E)).elim 0
        (fun e => e.held.count (.mutex, id)) = (held.erase (m, i)).count (.mutex, id) := by
      cases e with
      | none => exact (Multiset.count_eq_zero_of_notMem fun hmem => hend rfl _ hmem rfl).symm
      | some e => rfl
    simp only [Cont.follow, Cont.message, CpuEvent.holds, hrest]
    by_cases hc : m = .mutex ∧ id = i
    · obtain ⟨rfl, rfl⟩ := hc
      rw [if_pos ⟨rfl, rfl⟩, Multiset.count_erase_self]
      have := Multiset.count_pos.mpr (hmem rfl)
      omega
    · rw [if_neg hc, Multiset.count_erase_of_ne, Nat.zero_add]
      rintro heq
      exact hc ⟨(congrArg Prod.fst heq).symm, congrArg Prod.snd heq⟩

variable (id) in
/-- **One event and the holders of a mutex.** -/
theorem Processed.holders (h : Processed cpu ev cpu' d)
    (hstart : ∀ e, ev = .user e → e.held = 0) (hown : ∀ x, ev.own = some x → x.Asks)
    (hitems : ∀ x ∈ cpu.items, x.Asks) (t : ℚ) :
    d.holds id + (cpu'.items.map (CpuListItem.holds id)).sum + cpu.lockedOnce id =
      ((ev.message t).map fun x => x.2.holds id).sum +
        (cpu.items.map (CpuListItem.holds id)).sum + cpu'.lockedOnce id := by
  cases h with
  | queued e hev hbusy =>
    subst hev
    rw [items_push, Multiset.map_cons, Multiset.sum_cons, CpuListItem.holds, hstart e rfl,
      Multiset.count_zero, Nat.zero_add, Dispatch.holds, CpuEvent.message]
    rfl
  | idle hc hnone hqueue =>
    have h1 := hc.holders id hstart t
    rw [CpuEvent.ownHolds, hnone] at h1
    rw [hc.items]
    simp only [Dispatch.holds, Option.elim_none] at h1 ⊢
    omega
  | own hc hsome hx =>
    have h1 := hc.holders id hstart t
    have h2 := hx.holders id (hown _ hsome)
    rw [CpuEvent.ownHolds, hsome] at h1
    rw [hc.items] at h2
    simp only [Option.elim_some] at h1
    omega
  | @next c _ x q _ hc hnone hqueue hx =>
    have hcons := CpuState.items_eq_cons hqueue
    rw [hc.items] at hcons
    have h1 := hc.holders id hstart t
    have h2 := hx.holders id (hitems x (by rw [hcons]; exact Multiset.mem_cons_self _ _))
    rw [CpuEvent.ownHolds, hnone] at h1
    rw [hcons, Multiset.map_cons, Multiset.sum_cons]
    simp only [Option.elim_none] at h1
    have h3 : ({ c with queue := q } : CpuState (Chained E)).lockedOnce id = c.lockedOnce id := rfl
    omega

section Exclusion

variable [DecidableEq S] [DecidableEq K] [Fintype S] {P : Program S K E σ κ χ}
  {conf : SimConfig S K (Chained E)} {W₀ : World S K E σ κ} {W W' : World S K (Chained E) σ κ}
  {tr : List (Record S K (Chained E) σ κ)} {s : S} {t : ℚ}
  {a : Option (Act S K (Chained E) σ κ)}

omit [DecidableEq S] [DecidableEq K] in
/-- What waits at a CPU asks for its lock, if all tasks are well placed. -/
theorem World.items_ask (h : ∀ x ∈ W.config.pool, x.Placed) (s : S) :
    ∀ x ∈ (W.servers s).cpu.items, x.Asks := by
  intro x hx
  have := h _ (World.item_mem_pool hx)
  cases x with
  | event e => trivial
  | lock m i e => exact this

omit [DecidableEq S] [DecidableEq K] in
theorem World.own_asks (h : ∀ x ∈ W.config.pool, x.Placed) (hev : (t, .server s ev) ∈ W.events) :
    ∀ x, ev.own = some x → x.Asks := by
  intro x hx
  cases ev with
  | lock m i e =>
    cases hx
    exact h _ (World.event_mem_pool hev rfl)
  | user e => cases hx; trivial
  | unlock m i e =>
    obtain ⟨e', -, rfl⟩ := Option.map_eq_some_iff.mp hx
    trivial
  | freeCore => cases hx
  | event => cases hx

omit [DecidableEq S] [DecidableEq K] [Fintype S] in
/-- A handler leaves behind what its chain holds. -/
theorem Leaves.holders {st : σ} {new : Multiset (ℚ × CpuEvent (Chained E))}
    (h : Leaves P.chained s t st d a new) {tgt : Target S K (Chained E)}
    (hG : ReleasesMutexes (⟨W, t, tgt, a⟩ : Record S K (Chained E) σ κ)) (id : ℕ) :
    (new.map fun x => x.2.holds id).sum = d.holds id := by
  cases h with
  | idle => rfl
  | wait => rfl
  | @run e r t' hr ht =>
    obtain ⟨r', hr', rfl⟩ := Option.map_eq_some_iff.mp hr
    rw [Multiset.map_singleton, Multiset.sum_singleton]
    exact follow_holds (hG _ rfl) id

omit [DecidableEq K] in
/-- The mutex has one holder if it is locked, and else none. -/
theorem World.CpuStep.holders {tgt : Target S K (Chained E)}
    (hplaced : ∀ x ∈ W.config.pool, x.Placed) (hev : (t, tgt) ∈ W.events)
    (h : World.CpuStep P.chained W s t tgt a W')
    (hG : ReleasesMutexes (⟨W, t, tgt, a⟩ : Record S K (Chained E) σ κ))
    (hW : W.holders s id = (W.servers s).cpu.lockedOnce id) :
    W'.holders s id = (W'.servers s).cpu.lockedOnce id := by
  cases h with
  | other _ _ hcpu hmessages =>
    rw [World.holders, hcpu, hmessages]
    exact hW
  | @own ev _ _ d rest new hold hprocess hleaves hnew =>
    have hnewsum := hleaves.holders hG id
    have hcpu := (cpuProcessEvent_processed hprocess).holders id
      (by rintro e rfl; exact hplaced _ (World.event_mem_pool hev rfl))
      (World.own_asks hplaced hev) (World.items_ask hplaced s) t
    rw [World.holders, hold, Multiset.map_add, Multiset.sum_add] at hW
    rw [World.holders, hnew, Multiset.map_add, Multiset.sum_add, hnewsum]
    omega

theorem World.Trace.holders (hfresh : W₀.Fresh)
    (htrace : World.Trace P.chained conf ReleasesMutexes W₀.chained W tr) (s : S) (id : ℕ) :
    W.holders s id = (W.servers s).cpu.lockedOnce id := by
  induction htrace with
  | nil =>
    have h := hfresh.chained s
    have hfree : (W₀.chained.servers s).cpu.table.mutex id = false := by
      simp only [CpuState.table]
      split <;> rename_i l hl
      · rw [h.1.locks l (List.mem_of_getElem? hl)]
      · rfl
    rw [World.holders, h.2, h.1.items, CpuState.lockedOnce, hfree]
    rfl
  | cons c htrace hev hstep hG ih =>
    obtain ⟨-, -, -, h⟩ := World.step_cpu hev hstep s
    exact h.holders (htrace.placed hfresh) (List.mem_of_getElem? hev) hG ih

end Exclusion

/-! ## 2. Requests -/

/-- The event that is to run with the mutex `id`, if the item asks for that. -/
def CpuListItem.request? (id : ℕ) : CpuListItem E → Option E
  | .lock .mutex i e => if i = id then some e else none
  | _ => none

def CpuEvent.request? (id : ℕ) : CpuEvent E → Option E
  | .lock .mutex i e => if i = id then some e else none
  | _ => none

/-- The requests for the mutex among some items. -/
def requests (id : ℕ) (l : List (CpuListItem E)) : Multiset E :=
  (l.filterMap (CpuListItem.request? id) : List E)

/-- The requests for a mutex of `s` that are in flight. -/
def World.inFlight [DecidableEq S] (W : World S K E σ κ) (s : S) (id : ℕ) : Multiset E :=
  (W.messages s).filterMap fun x => x.2.request? id

/-- What the CPU takes up in an event: what comes with it, or what is next. -/
def CpuState.takes (cpu : CpuState E) (ev : CpuEvent E) : Option (CpuListItem E) :=
  ev.own.or (cpu.line ev).head?

/-- The request a handler makes. -/
def Record.request? [DecidableEq S] (s : S) (id : ℕ) (r : Record S K E σ κ) : Option E :=
  match r.act with
  | some (.server s' _ _ _ out) => if s' = s then out.cont.message.request? id else none
  | _ => none

/-- The event that is handled with the mutex, if a request for it is granted: the CPU took up the
request, and a handler ran. -/
def Record.grant? [DecidableEq S] (s : S) (id : ℕ) (r : Record S K E σ κ) : Option E :=
  match r.target, r.act with
  | .server s' ev, some (.server _ _ e _ _) =>
    if s' = s ∧ (((r.before.servers s).cpu.takes ev).bind (CpuListItem.request? id)).isSome then
      some e
    else none
  | _, _ => none

/-- Every queue of a lock holds requests for this lock. -/
def CpuState.Sorted (cpu : CpuState E) : Prop :=
  ∀ m i x, x ∈ cpu.waiting m i → ∃ m' e, x = .lock m' i e ∧ m.Same m'

/-- The requests for the mutex that wait for it or for the CPU. -/
def CpuState.requests (cpu : CpuState E) (id : ℕ) : Multiset E :=
  CCSim.requests id (cpu.waiting .mutex id) + CCSim.requests id cpu.queue

theorem Mode.Same.trans {m m' m'' : Mode} (h : m.Same m') (h' : m'.Same m'') : m.Same m'' :=
  Iff.trans h h'

section Requests

variable {cpu cpu' c : CpuState E} {ev : CpuEvent E} {d : Dispatch E} {id : ℕ}

@[simp] theorem requests_nil (id : ℕ) : requests id ([] : List (CpuListItem E)) = 0 := rfl

@[simp] theorem requests_append (id : ℕ) (l l' : List (CpuListItem E)) :
    requests id (l ++ l') = requests id l + requests id l' := by
  simp [requests]

theorem requests_cons (id : ℕ) (x : CpuListItem E) (l : List (CpuListItem E)) :
    requests id (x :: l) = (x.request? id).toList + requests id l := by
  simp only [requests, List.filterMap_cons]
  cases x.request? id <;> simp

/-- An unlock message wakes someone who waits. -/
theorem CpuState.mem_waiting {m : Mode} {i : ℕ} {x : CpuListItem E}
    (h : cpu.waiter m i = some x) : x ∈ cpu.waiting m i := by
  cases m with
  | mutex => exact List.mem_of_head? h
  | write => exact List.mem_of_head? h
  | read =>
    simp only [CpuState.waiter] at h
    split at h
    · exact List.mem_of_head? h
    · cases h

/-- The waiter of another lock is no request for this mutex. -/
theorem CpuState.Sorted.requests_waiter (h : cpu.Sorted) {m : Mode} {i : ℕ}
    (hne : ¬(m = .mutex ∧ i = id)) : CCSim.requests id (cpu.waiter m i).toList = 0 := by
  cases hw : cpu.waiter m i with
  | none => rfl
  | some x =>
    obtain ⟨m', e, rfl, hm⟩ := h m i x (CpuState.mem_waiting hw)
    rw [Option.toList_some, requests_cons, requests_nil, add_zero]
    cases m' with
    | mutex =>
      have : i ≠ id := fun hi => hne ⟨hm.mpr rfl, hi⟩
      simp [CpuListItem.request?, this]
    | read => rfl
    | write => rfl

/-- A woken waiter keeps its request. -/
theorem Freed.requests (h : Freed cpu ev c) (hsorted : cpu.Sorted) :
    c.requests id = cpu.requests id := by
  rw [CpuState.requests, CpuState.requests, h.queue]
  by_cases hev : ∃ m i e, ev = .unlock m i e
  · obtain ⟨m, i, e, rfl⟩ := hev
    rw [CpuState.line, requests_append]
    by_cases hc : m = .mutex ∧ i = id
    · obtain ⟨rfl, rfl⟩ := hc
      rw [h.woken rfl Iff.rfl, requests_append]
      abel
    · rw [hsorted.requests_waiter hc, zero_add, h.kept]
      rintro m' e' heq hm
      cases heq
      exact hc ⟨hm.mpr rfl, rfl⟩
  · rw [h.kept fun m e he => absurd ⟨m, id, e, he⟩ hev]
    cases ev with
    | unlock m i e => exact absurd ⟨m, i, e, rfl⟩ hev
    | _ => rfl

/-- The queues of the locks stay sorted. -/
theorem Freed.sorted (h : Freed cpu ev c) (hsorted : cpu.Sorted) : c.Sorted := by
  intro m i x hx
  refine hsorted m i x ?_
  by_cases hev : ∃ m' e, ev = .unlock m' i e ∧ m'.Same m
  · obtain ⟨m', e, rfl, hm⟩ := hev
    rw [h.woken rfl hm]
    exact List.mem_append_right _ hx
  · rw [← h.kept]
    · exact hx
    · exact fun m' e he hm => hev ⟨m', e, he, hm⟩

theorem Took.sorted {x : CpuListItem E} (h : Took c x cpu' d) (hsorted : c.Sorted) :
    cpu'.Sorted := by
  cases h with
  | event e hfree => exact fun m i x hx => hsorted m i x (waiting_busyCores c _ ▸ hx)
  | granted hfree hlock hgrant hcpu hhas hitems hwaiting =>
    exact fun m i x hx => hsorted m i x (hwaiting ▸ hx)
  | @blocked m id e cpu' hlock hgrant htable hcpu hhas hitems hwaiting =>
    intro m' i x hx
    rw [hwaiting] at hx
    rcases List.mem_append.mp hx with hx | hx
    · exact hsorted m' i x hx
    · split at hx <;> rename_i hsame
      · obtain ⟨hm, rfl⟩ := hsame
        exact ⟨m, e, List.mem_singleton.mp hx, Iff.symm hm⟩
      · cases hx

/-- A request that is taken up is granted, or goes back to wait. -/
theorem Took.requests {x : CpuListItem E} (h : Took c x cpu' d) :
    cpu'.requests id + (if d.cores = 1 then ((x.request? id).toList : Multiset E) else 0) =
      c.requests id + (x.request? id).toList := by
  cases h with
  | event e hfree => simp [CpuState.requests, CpuListItem.request?]
  | @granted m i e cpu' hfree hlock hgrant hcpu hhas hitems hwaiting =>
    have hq : cpu'.queue = c.queue := by rw [hcpu]
    simp [CpuState.requests, hwaiting, hq, Dispatch.cores]
  | @blocked m i e cpu' hlock hgrant htable hcpu hhas hitems hwaiting =>
    have hq : cpu'.queue = c.queue := by rw [hcpu]
    have hidle : ¬(Dispatch.wait : Dispatch E).cores = 1 := by simp [Dispatch.cores]
    rw [if_neg hidle, add_zero, CpuState.requests, CpuState.requests, hwaiting, hq, requests_append]
    by_cases hc : m = .mutex ∧ i = id
    · obtain ⟨rfl, rfl⟩ := hc
      rw [if_pos ⟨Iff.rfl, rfl⟩, requests_cons, requests_nil]
      rw [add_zero]
      abel
    · have hnone : (CpuListItem.lock m i e).request? id = none := by
        cases m with
        | mutex =>
          have : i ≠ id := fun hi => hc ⟨rfl, hi⟩
          simp [CpuListItem.request?, this]
        | _ => rfl
      have hif : CCSim.requests id
          (if m.Same .mutex ∧ id = i then [CpuListItem.lock m i e] else []) = 0 := by
        split
        · rw [requests_cons, hnone]
          rfl
        · rfl
      rw [hif, hnone, add_zero, Option.toList_none, Multiset.coe_nil, add_zero]

variable (id) in
/-- **One event and the requests for a mutex.** -/
theorem Processed.requests (h : Processed cpu ev cpu' d) (hsorted : cpu.Sorted) :
    cpu'.requests id + (if d.cores = 1 then
        (((cpu.takes ev).bind (CpuListItem.request? id)).toList : Multiset E) else 0) =
      cpu.requests id + (ev.request? id).toList := by
  have hown : ∀ x, ev.own = some x → ev.request? id = x.request? id := by
    intro x hx
    cases ev with
    | lock m i e => cases hx; cases m <;> rfl
    | user e => cases hx; rfl
    | unlock m i e =>
      obtain ⟨e', -, rfl⟩ := Option.map_eq_some_iff.mp hx
      rfl
    | freeCore => cases hx
    | event => cases hx
  have hnone : ev.own = none → ev.request? id = none := by
    intro hx
    cases ev with
    | lock m i e => cases hx
    | _ => rfl
  cases h with
  | queued e hev hbusy =>
    subst hev
    simp [CpuState.requests, Dispatch.cores, CpuEvent.request?, requests_cons,
      CpuListItem.request?]
  | idle hc ho hqueue =>
    rw [hc.requests hsorted, hnone ho, if_neg (by simp [Dispatch.cores])]
    rfl
  | own hc ho hx =>
    rw [CpuState.takes, ho, Option.some_or, Option.bind_some, hx.requests, hc.requests hsorted,
      hown _ ho]
  | @next c _ x q _ hc ho hqueue hx =>
    have hline : cpu.line ev = x :: q := hc.queue.symm.trans hqueue
    have hcons : ({ c with queue := q } : CpuState E).requests id + (x.request? id).toList =
        c.requests id := by
      rw [CpuState.requests, CpuState.requests, waiting_queue, hqueue, requests_cons]
      abel
    rw [CpuState.takes, ho, Option.none_or, hline, List.head?_cons, Option.bind_some, hx.requests,
      hcons, hc.requests hsorted, hnone ho]
    simp

theorem Processed.sorted (h : Processed cpu ev cpu' d) (hsorted : cpu.Sorted) : cpu'.Sorted := by
  cases h with
  | queued e hev hbusy => exact fun m i x hx => hsorted m i x (waiting_queue cpu _ ▸ hx)
  | idle hc ho hqueue => exact hc.sorted hsorted
  | own hc ho hx => exact hx.sorted (hc.sorted hsorted)
  | next hc ho hqueue hx =>
    refine hx.sorted fun m i y hy => hc.sorted hsorted m i y ?_
    rwa [waiting_queue] at hy

/-! ## 3. Waiters -/

/-- Whoever waits at the mutex waits for its holder, or for a request in the CPU queue. -/
def CpuState.Awaited (cpu : CpuState E) (id : ℕ) : Prop :=
  cpu.waiting .mutex id ≠ [] → cpu.table.mutex id = true ∨ ∃ e, .lock .mutex id e ∈ cpu.queue

/-- After a mutex is given back, its first waiter is in the CPU queue. -/
theorem Freed.awaited (h : Freed cpu ev c) (hsorted : cpu.Sorted) (hcpu : cpu.Awaited id) :
    c.Awaited id := by
  intro hne
  by_cases hev : ∃ e, ev = .unlock .mutex id e
  · obtain ⟨e, rfl⟩ := hev
    right
    cases hw : cpu.waiting .mutex id with
    | nil =>
      have hsame : Mode.mutex.Same .mutex := Iff.rfl
      have hwoken := h.woken rfl hsame
      rw [hw] at hwoken
      exact absurd (List.append_eq_nil_iff.mp hwoken.symm).2 hne
    | cons x q =>
      obtain ⟨m', e', rfl, hm⟩ := hsorted .mutex id x (by rw [hw]; exact List.mem_cons_self)
      obtain rfl : m' = .mutex := hm.mp rfl
      refine ⟨e', ?_⟩
      rw [h.queue, CpuState.line, CpuState.waiter, hw]
      exact List.mem_append_left _ (List.mem_singleton.mpr rfl)
  · have hkept : c.waiting .mutex id = cpu.waiting .mutex id := by
      refine h.kept fun m e he hm => hev ⟨e, ?_⟩
      rw [he, hm.mpr rfl]
    have hsub : ∀ x ∈ cpu.queue, x ∈ c.queue := by
      intro x hx
      rw [h.queue]
      cases ev with
      | unlock m i e => exact List.mem_append_right _ hx
      | _ => exact hx
    rcases hcpu (hkept ▸ hne) with hl | ⟨e, he⟩
    · left
      have htable := h.table
      cases ev with
      | unlock m i e =>
        have hmutex := LockTable.release?_mutex htable id
        rw [if_neg] at hmutex
        · exact hmutex.trans hl
        · rintro ⟨rfl, rfl⟩
          exact hev ⟨e, rfl⟩
      | freeCore => exact htable ▸ hl
      | event => exact htable ▸ hl
      | lock m i e => exact htable ▸ hl
      | user e => exact htable ▸ hl
    · exact .inr ⟨e, hsub _ he⟩

/-- A request that is taken up finds the mutex locked, or locks it. -/
theorem Took.awaited {x : CpuListItem E} (h : Took c x cpu' d)
    (hc : c.waiting .mutex id ≠ [] →
      c.table.mutex id = true ∨ ∃ e, .lock .mutex id e ∈ x :: c.queue) : cpu'.Awaited id := by
  -- an item that is no request for the mutex changes nothing
  have key : (∀ e, x ≠ .lock .mutex id e) → cpu'.waiting .mutex id = c.waiting .mutex id →
      cpu'.table.mutex id = c.table.mutex id → cpu'.queue = c.queue → cpu'.Awaited id := by
    intro hx hw ht hq hne
    rw [ht, hq]
    refine (hc (hw ▸ hne)).imp_right fun ⟨e, he⟩ => ⟨e, ?_⟩
    rcases List.mem_cons.mp he with he | he
    · exact absurd he.symm (hx e)
    · exact he
  cases h with
  | event e hfree => exact key (by simp) (by rw [waiting_busyCores]) rfl rfl
  | @granted m i e cpu' hfree hlock hgrant hcpu hhas hitems hwaiting =>
    have hmutex := LockTable.grant?_mutex hgrant id
    by_cases hm : m = .mutex ∧ id = i
    · rw [if_pos hm] at hmutex
      exact fun _ => .inl hmutex.2
    · rw [if_neg hm] at hmutex
      refine key ?_ (by rw [hwaiting]) hmutex (by rw [hcpu])
      rintro e' ⟨⟩
      exact hm ⟨rfl, rfl⟩
  | @blocked m i e cpu' hlock hgrant htable hcpu hhas hitems hwaiting =>
    by_cases hm : m = .mutex ∧ id = i
    · obtain ⟨rfl, rfl⟩ := hm
      intro _
      left
      rw [htable]
      by_contra hfree
      rw [LockTable.grant?, if_neg hfree] at hgrant
      cases hgrant
    · refine key ?_ ?_ (by rw [htable]) (by rw [hcpu])
      · rintro e' ⟨⟩
        exact hm ⟨rfl, rfl⟩
      · rw [hwaiting, if_neg, List.append_nil]
        rintro ⟨hsame, rfl⟩
        exact hm ⟨hsame.mpr rfl, rfl⟩

theorem Processed.awaited (h : Processed cpu ev cpu' d) (hsorted : cpu.Sorted)
    (hcpu : cpu.Awaited id) : cpu'.Awaited id := by
  cases h with
  | queued e hev hbusy =>
    intro hne
    rw [waiting_queue] at hne
    exact (hcpu hne).imp_right fun ⟨e', he⟩ => ⟨e', List.mem_append_left _ he⟩
  | idle hc ho hqueue => exact hc.awaited hsorted hcpu
  | own hc ho hx =>
    refine hx.awaited fun hne => ?_
    exact (hc.awaited hsorted hcpu hne).imp_right fun ⟨e, he⟩ => ⟨e, List.mem_cons_of_mem _ he⟩
  | next hc ho hqueue hx =>
    refine hx.awaited fun hne => ?_
    rw [waiting_queue] at hne
    have := hc.awaited hsorted hcpu hne
    rwa [hqueue] at this

end Requests

section Trace

variable [DecidableEq S] [DecidableEq K] {P : Program S K E σ κ χ} {conf : SimConfig S K E}
  {G : Record S K E σ κ → Prop} {W₀ W W' : World S K E σ κ} {tr : List (Record S K E σ κ)} {s : S}
  {t : ℚ} {tgt : Target S K E} {a : Option (Act S K E σ κ)} {id : ℕ}

/-- A request that is granted is handled with the event it was made for. -/
theorem Processed.payload {E : Type} {cpu cpu' : CpuState E} {ev : CpuEvent E} {e e' : E}
    (h : Processed cpu ev cpu' (.run e))
    (htakes : (cpu.takes ev).bind (CpuListItem.request? id) = some e') : e' = e := by
  have key : ∀ {c x}, Took c x cpu' (.run e) → x.request? id = some e' → e' = e := by
    intro c x hx hreq
    cases hx with
    | event => cases hreq
    | @granted m i =>
      cases m <;> simp only [CpuListItem.request?, reduceCtorEq] at hreq
      split at hreq <;> simp only [Option.some.injEq, reduceCtorEq] at hreq
      exact hreq.symm
  cases h with
  | own hc ho hx =>
    rw [CpuState.takes, ho, Option.some_or, Option.bind_some] at htakes
    exact key hx htakes
  | next hc ho hqueue hx =>
    rw [CpuState.takes, ho, Option.none_or, ← hc.queue, hqueue, List.head?_cons,
      Option.bind_some] at htakes
    exact key hx htakes

omit [DecidableEq K] in
/-- What is granted in an event of `s`. -/
theorem Record.grant?_own {ev : CpuEvent E} {cpu' : CpuState E} {d : Dispatch E}
    {new : Multiset (ℚ × CpuEvent E)} (h : Processed (W.servers s).cpu ev cpu' d)
    (hleaves : Leaves P s t (W.servers s).state d a new) :
    (((⟨W, t, .server s ev, a⟩ : Record S K E σ κ).grant? s id).toList : Multiset E) =
      if d.cores = 1 then
        ((((W.servers s).cpu.takes ev).bind (CpuListItem.request? id)).toList : Multiset E)
      else 0 := by
  cases hleaves with
  | idle => rfl
  | wait => rfl
  | @run e r t' hr ht =>
    simp only [Record.grant?, true_and, Dispatch.cores, if_true]
    cases htakes : ((W.servers s).cpu.takes ev).bind (CpuListItem.request? id) with
    | none => rfl
    | some e' =>
      rw [h.payload htakes]
      rfl

omit [DecidableEq K] in
/-- What a handler of `s` asks for. -/
theorem Leaves.request {d : Dispatch E} {st : σ} {new : Multiset (ℚ × CpuEvent E)}
    (h : Leaves P s t st d a new) :
    new.filterMap (fun x => x.2.request? id) =
      (((⟨W, t, tgt, a⟩ : Record S K E σ κ).request? s id).toList : Multiset E) := by
  cases h with
  | idle => rfl
  | wait => rfl
  | @run e r t' hr ht =>
    simp only [Record.request?, if_true]
    rw [← Multiset.cons_zero]
    cases hreq : r.cont.message.request? id with
    | none => rw [Multiset.filterMap_cons_none _ _ (by exact hreq)]; rfl
    | some e' => rw [Multiset.filterMap_cons_some _ _ _ (by exact hreq)]; rfl

theorem message_request (ev : CpuEvent E) (t : ℚ) (id : ℕ) :
    (ev.message t).filterMap (fun x => x.2.request? id) = (ev.request? id).toList := by
  have key : Multiset.filterMap (fun x : ℚ × CpuEvent E => x.2.request? id) {(t, ev)} =
      (ev.request? id).toList := by
    rw [← Multiset.cons_zero]
    cases hreq : ev.request? id with
    | none => rw [Multiset.filterMap_cons_none _ _ (by exact hreq)]; rfl
    | some e' => rw [Multiset.filterMap_cons_some _ _ _ (by exact hreq)]; rfl
  cases ev with
  | user e => rfl
  | _ => exact key

omit [DecidableEq K] in
/-- Events of others make no request here, and none is granted in them. -/
theorem Record.request?_other (h : ∀ t' e st r, a ≠ some (.server s t' e st r)) :
    (⟨W, t, tgt, a⟩ : Record S K E σ κ).request? s id = none := by
  rcases a with _ | ⟨s', t', e, st, r⟩ | _
  · rfl
  · simp only [Record.request?]
    refine if_neg ?_
    rintro rfl
    exact h t' e st r rfl
  · rfl

omit [DecidableEq K] in
theorem Record.grant?_other (h : ∀ ev, tgt ≠ .server s ev) :
    (⟨W, t, tgt, a⟩ : Record S K E σ κ).grant? s id = none := by
  rcases tgt with ⟨s', ev⟩ | ⟨k, e⟩
  · rcases a with _ | ⟨s'', t', e, st, r⟩ | _
    · rfl
    · simp only [Record.grant?]
      refine if_neg ?_
      rintro ⟨rfl, -⟩
      exact h ev rfl
    · rfl
  · rfl

theorem coe_filterMap_cons {α β : Type} (f : α → Option β) (x : α) (l : List α) :
    (((x :: l).filterMap f : List β) : Multiset β) = (f x).toList + (l.filterMap f : List β) := by
  rw [List.filterMap_cons]
  cases f x <;> simp

/-- No request is lost, and none is granted twice. -/
theorem World.Trace.requests (hfresh : W₀.Fresh) (htrace : World.Trace P conf G W₀ W tr) (s : S)
    (id : ℕ) : (W.servers s).cpu.Sorted ∧ (W.servers s).cpu.Awaited id ∧
      ((tr.filterMap (Record.request? s id) : List E) : Multiset E) =
        W.inFlight s id + (W.servers s).cpu.requests id +
          (tr.filterMap (Record.grant? s id) : List E) := by
  induction htrace with
  | nil =>
    have hwaiting : ∀ m i, (W₀.servers s).cpu.waiting m i = [] := (hfresh s).1.waiting
    refine ⟨fun m i x hx => ?_, fun hne => absurd (hwaiting _ _) hne, ?_⟩
    · rw [hwaiting] at hx
      cases hx
    · rw [World.inFlight, (hfresh s).2, CpuState.requests, hwaiting, (hfresh s).1.queue]
      rfl
  | @cons W W' tr t tgt a c htrace hev hstep hG ih =>
    obtain ⟨hsorted, hawaited, hrequests⟩ := ih
    obtain ⟨-, -, -, h⟩ := World.step_cpu hev hstep s
    rw [coe_filterMap_cons, coe_filterMap_cons, hrequests]
    cases h with
    | other htgt hact hcpu hmessages =>
      rw [Record.request?_other hact, Record.grant?_other htgt, hcpu]
      refine ⟨hsorted, hawaited, ?_⟩
      simp only [World.inFlight, hmessages, Option.toList_none, Multiset.coe_nil, zero_add]
    | @own ev _ _ d rest new hold hprocess hleaves hnew =>
      have hp := cpuProcessEvent_processed hprocess
      refine ⟨hp.sorted hsorted, hp.awaited hsorted hawaited, ?_⟩
      have hacc := hp.requests id hsorted
      rw [← Record.grant?_own hp hleaves] at hacc
      have hmade : new.filterMap (fun x => x.2.request? id) =
          (((⟨W, t, .server s ev, a⟩ : Record S K E σ κ).request? s id).toList : Multiset E) :=
        hleaves.request
      simp only [World.inFlight, hold, hnew, Multiset.filterMap_add, message_request, hmade]
      -- what the CPU has given up has been granted, the rest is where it was
      generalize (((⟨W, t, .server s ev, a⟩ : Record S K E σ κ).grant? s id).toList :
        Multiset E) = granted at hacc ⊢
      generalize (((⟨W, t, .server s ev, a⟩ : Record S K E σ κ).request? s id).toList :
        Multiset E) = made
      generalize ((ev.request? id).toList : Multiset E) = came at hacc ⊢
      generalize Multiset.filterMap (fun x => CpuEvent.request? id x.2) rest = others
      generalize ((tr.filterMap (Record.grant? s id) : List E) : Multiset E) = before
      calc made + (came + others + (W.servers s).cpu.requests id + before)
          = others + made + ((W.servers s).cpu.requests id + came) + before := by abel
        _ = others + made + ((W'.servers s).cpu.requests id + granted) + before := by rw [hacc]
        _ = others + made + (W'.servers s).cpu.requests id + (granted + before) := by abel

end Trace

/-! ## 4. Mutual exclusion -/

/-- A request is granted when the mutex is free, or has just been given back. -/
theorem Processed.granted {E : Type} {cpu cpu' : CpuState E} {ev : CpuEvent E} {e e' : E} {id : ℕ}
    (h : Processed cpu ev cpu' (.run e))
    (htakes : (cpu.takes ev).bind (CpuListItem.request? id) = some e') :
    cpu.table.mutex id = false ∨ ev = .unlock .mutex id none := by
  have key : ∀ {c x}, Took c x cpu' (.run e) → x.request? id = some e' →
      c.table.mutex id = false ∧ ∃ e, x = .lock .mutex id e := by
    intro c x hx hreq
    cases hx with
    | event => cases hreq
    | @granted m i _ _ hfree hlock hgrant =>
      cases m <;> simp only [CpuListItem.request?, reduceCtorEq] at hreq
      split at hreq <;> simp only [Option.some.injEq, reduceCtorEq] at hreq
      rename_i hi
      subst hi
      have := LockTable.grant?_mutex hgrant i
      rw [if_pos ⟨rfl, rfl⟩] at this
      exact ⟨this.1, e, rfl⟩
  cases h with
  | own hc ho hx =>
    rw [CpuState.takes, ho, Option.some_or, Option.bind_some] at htakes
    obtain ⟨hfree, e, rfl⟩ := key hx htakes
    cases ev with
    | lock m i e => exact .inl (hc.table ▸ hfree)
    | user e => cases ho
    | unlock m i e => simp [CpuEvent.own] at ho
    | freeCore => cases ho
    | event => cases ho
  | next hc ho hqueue hx =>
    rw [CpuState.takes, ho, Option.none_or, ← hc.queue, hqueue, List.head?_cons,
      Option.bind_some] at htakes
    obtain ⟨hfree, -⟩ := key hx htakes
    have htable := hc.table
    cases ev with
    | unlock m i e =>
      have hmutex := LockTable.release?_mutex htable id
      obtain rfl : e = none := by simpa [CpuEvent.own] using ho
      by_cases hm : m = .mutex ∧ id = i
      · obtain ⟨rfl, rfl⟩ := hm
        exact .inr rfl
      · rw [if_neg hm] at hmutex
        exact .inl (hmutex.symm.trans hfree)
    | freeCore => exact .inl (htable ▸ hfree)
    | event => exact .inl (htable ▸ hfree)
    | lock m i e => cases ho
    | user e => cases ho

section Exclusion

variable [DecidableEq S] [DecidableEq K] [Fintype S] {P : Program S K E σ κ χ}
  {conf : SimConfig S K E} {W₀ : World S K E σ κ} {W : World S K (Chained E) σ κ}
  {tr : List (Record S K (Chained E) σ κ)}

/-- **The simulated mutex.**  The mutex has one holder if it is locked, and else none.  A request
is granted only when there is no holder, or in the event in which the holder gives the mutex back
and ends.  The requests made are those in flight, at the mutex, in the CPU queue, and granted, and
a request that is granted is handled with the event it was made for.  While something waits at the
mutex, it is locked or a request for it is in the CPU queue. -/
theorem mutex_exclusion (hfresh : W₀.Fresh)
    (htrace : World.Trace P.chained conf.chained ReleasesMutexes W₀.chained W tr) (s : S) (id : ℕ) :
    W.holders s id = (if (W.servers s).cpu.table.mutex id then 1 else 0) ∧
    (∀ r ∈ tr, (r.grant? s id).isSome →
      r.before.holders s id = 0 ∨ r.target = .server s (.unlock .mutex id none)) ∧
    ((tr.filterMap (Record.request? s id) : List _) : Multiset (Chained E)) =
      W.inFlight s id + requests id ((W.servers s).cpu.waiting .mutex id) +
        requests id (W.servers s).cpu.queue + (tr.filterMap (Record.grant? s id) : List _) ∧
    ((W.servers s).cpu.waiting .mutex id ≠ [] → (W.servers s).cpu.table.mutex id = true ∨
      ∃ e, .lock .mutex id e ∈ (W.servers s).cpu.queue) := by
  obtain ⟨-, hawaited, hrequests⟩ := htrace.requests hfresh.chained s id
  refine ⟨htrace.holders hfresh s id, ?_, ?_, hawaited⟩
  · clear hawaited hrequests
    induction htrace with
    | nil => exact fun r hr => absurd hr (List.not_mem_nil)
    | @cons W W' tr t tgt a c htrace hev hstep hG ih =>
      intro r hr hgrant
      rcases List.mem_cons.mp hr with rfl | hr
      · obtain ⟨-, -, -, h⟩ := World.step_cpu hev hstep s
        cases h with
        | other htgt =>
          rw [Record.grant?_other htgt] at hgrant
          cases hgrant
        | own hold hprocess hleaves =>
          cases hleaves with
          | idle => cases hgrant
          | wait => cases hgrant
          | run hr ht =>
            simp only [Record.grant?, true_and] at hgrant
            split at hgrant <;> rename_i hsome
            · obtain ⟨e', he'⟩ := Option.isSome_iff_exists.mp hsome
              rcases (cpuProcessEvent_processed hprocess).granted he' with hfree | rfl
              · left
                rw [htrace.holders hfresh s id, CpuState.lockedOnce, hfree]
                rfl
              · exact .inr rfl
            · cases hgrant
      · exact ih r hr hgrant
  · rw [hrequests, CpuState.requests, ← add_assoc]

end Exclusion

/-- The second job waits at the mutex, which the first one holds; two requests have been made. -/
theorem mutex_exclusion_blocked : ∃ W tr,
    World.Trace jobs.chained jobsConf.chained ReleasesMutexes jobsWorld.chained W tr ∧
      (W.servers ()).cpu.waiting .mutex 0 ≠ [] ∧ W.holders () 0 = 1 ∧
      Multiset.card (tr.filterMap (Record.request? () 0) : Multiset (Chained LockingJob)) =
        1 + (tr.filterMap (Record.grant? () 0)).length := by
  obtain ⟨W, tr, htrace, hseen⟩ := World.Trace.of_retrace jobs.chained jobsConf.chained
    jobsWorld.chained ReleasesMutexes (jobChoices jobsBlocked)
    (fun W => decide ((W.servers ()).cpu.waiting .mutex 0 ≠ [] ∧
      (W.servers ()).cpu.table.mutex 0 = true ∧ (W.servers ()).cpu.queue = [] ∧
      Multiset.card (W.inFlight () 0) = 0 ∧
      Multiset.card (requests 0 ((W.servers ()).cpu.waiting .mutex 0)) = 1)) (by decide +kernel)
  obtain ⟨hwaiting, hlocked, hqueue, hflight, hcard⟩ := of_decide_eq_true hseen
  obtain ⟨hholders, -, hrequests, -⟩ := mutex_exclusion jobsWorld_fresh htrace () 0
  refine ⟨W, tr, htrace, hwaiting, by rw [hholders, hlocked]; rfl, ?_⟩
  rw [hrequests, hqueue, Multiset.card_add, Multiset.card_add, Multiset.card_add, hflight, hcard,
    Multiset.coe_card]
  simp

end CCSim
