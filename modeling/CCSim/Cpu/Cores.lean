/-
# Cores: accounting, wake-ups and work conservation

A CPU counts its busy cores.  A core is busy from the moment a handler starts on it until the
event with which the handler ends is processed, so the count is the number of these events
(`cpu_cores`).  When a lock is not free the core is given up and a `CPU_EVENT` is scheduled
without delay, to let the CPU take what is next.

Two things are expected of that event: when it comes there is a free core, as its handler
asserts, and no core stays idle while something waits.  Neither holds in every run.

* An event may arrive between the blocked lock message and its `CPU_EVENT`, at the same time, and
  take the core (`cpuEvent_finds_busy_cpu`).  As long as this does not happen the assertion holds
  (`cpuEvent_finds_free_core`).
* An unlock message with an event of its own moves a waiter to the CPU queue and goes on with its
  event; nothing tells the other cores (`waiter_left_behind`).  As long as they are all busy, or
  about to be woken anyway, no core is idle while something waits (`cpu_work_conserving`).
-/
import CCSim.Cpu.Trace

namespace CCSim

variable {S K E σ κ χ : Type} [DecidableEq S] [DecidableEq K]

/-! ## 1. Counting -/

/-- A CPU as it is set up, with its locks. -/
structure CpuState.Fresh (cpu : CpuState E) : Prop where
  cores : 1 ≤ cpu.cores
  busy : cpu.busyCores = 0
  queue : cpu.queue = []
  locks : ∀ l ∈ cpu.locks, l = {}
  rwlocks : ∀ l ∈ cpu.rwlocks, l = {}

/-- Every CPU is fresh and has sent itself nothing. -/
def World.Fresh (W : World S K E σ κ) : Prop :=
  ∀ s, (W.servers s).cpu.Fresh ∧ W.messages s = 0

/-- One for `CPU_EVENT`. -/
def CpuEvent.wakeUps : CpuEvent E → ℕ
  | .event => 1
  | _ => 0

/-- One for a dispatch that schedules `CPU_EVENT`. -/
def Dispatch.wakeUps : Dispatch E → ℕ
  | .wait => 1
  | _ => 0

/-- The number of pending `CPU_FREE_CORE`, lock and unlock messages. -/
def World.coresHeld (W : World S K E σ κ) (s : S) : ℕ :=
  (W.messages s).countP fun x => x.2.cores = 1

/-- The number of pending `CPU_EVENT`s. -/
def World.wakeUps (W : World S K E σ κ) (s : S) : ℕ :=
  (W.messages s).countP fun x => x.2.wakeUps = 1

/-- An item that is taken runs on a core or leaves a `CPU_EVENT`. -/
theorem Took.counts {c cpu' : CpuState E} {x : CpuListItem E} {d : Dispatch E}
    (h : Took c x cpu' d) :
    cpu'.cores = c.cores ∧ cpu'.queue = c.queue ∧ cpu'.busyCores = c.busyCores + d.cores ∧
      d.cores + d.wakeUps = 1 ∧ (c.busyCores ≤ c.cores → cpu'.busyCores ≤ c.cores) := by
  cases h with
  | event e hfree => exact ⟨rfl, rfl, rfl, rfl, fun _ => hfree⟩
  | granted hfree _ _ hcpu => rw [hcpu]; exact ⟨rfl, rfl, rfl, rfl, fun _ => hfree⟩
  | blocked _ _ _ hcpu => rw [hcpu]; exact ⟨rfl, rfl, rfl, rfl, fun h => h⟩

/-- The cores of an event go back, those of the dispatch are taken. -/
theorem Processed.busy {cpu cpu' : CpuState E} {ev : CpuEvent E} {d : Dispatch E}
    (h : Processed cpu ev cpu' d) :
    cpu'.cores = cpu.cores ∧ cpu'.busyCores + ev.cores = cpu.busyCores + d.cores ∧
      (cpu.busyCores ≤ cpu.cores → cpu'.busyCores ≤ cpu.cores) := by
  cases h with
  | queued e hev hbusy => subst hev; exact ⟨rfl, rfl, fun h => h⟩
  | idle hc =>
    have h1 := hc.cores
    have h2 := hc.busy
    simp only [Dispatch.cores]
    omega
  | own hc _ hx =>
    have h1 := hc.cores
    have h2 := hc.busy
    obtain ⟨h3, -, h4, -, h5⟩ := hx.counts
    omega
  | next hc _ _ hx =>
    have h1 := hc.cores
    have h2 := hc.busy
    obtain ⟨h3, -, h4, -, h5⟩ := hx.counts
    simp only at h3 h4 h5
    omega

/-- What is left in the CPU queue. -/
theorem Processed.queue {cpu cpu' : CpuState E} {ev : CpuEvent E} {d : Dispatch E}
    (h : Processed cpu ev cpu' d) :
    (d = .idle ∧ cpu.cores ≤ cpu.busyCores ∧ ∃ e, ev = .user e) ∨
      (d = .idle ∧ cpu'.queue = []) ∨
      (d.cores + d.wakeUps = 1 ∧ ev.own ≠ none ∧ cpu'.queue = cpu.line ev) ∨
      (d.cores + d.wakeUps = 1 ∧ ev.own = none ∧ cpu'.queue = (cpu.line ev).tail ∧
        cpu.line ev ≠ []) := by
  cases h with
  | queued e hev hbusy => exact .inl ⟨rfl, hbusy, e, hev⟩
  | idle _ _ hqueue => exact .inr (.inl ⟨rfl, hqueue⟩)
  | own hc hown hx =>
    obtain ⟨-, hq, -, hd, -⟩ := hx.counts
    exact .inr (.inr (.inl ⟨hd, by simp [hown], hq.trans hc.queue⟩))
  | next hc hown hqueue hx =>
    obtain ⟨-, hq, -, hd, -⟩ := hx.counts
    have hline := hc.queue.symm.trans hqueue
    exact .inr (.inr (.inr ⟨hd, hown, by rw [hline]; exact hq, by simp [hline]⟩))

/-- The locks named in the queues go on to exist. -/
theorem Processed.named {cpu cpu' : CpuState E} {ev : CpuEvent E} {d : Dispatch E}
    (h : Processed cpu ev cpu' d) (hnamed : cpu.Named) : cpu'.Named := by
  have key : ∀ {c : CpuState E} {x}, Took c x cpu' d → c.Named → cpu'.Named := by
    intro c x hx hc
    cases hx with
    | event e => exact fun m id e h => by rw [hasLock_busyCores]; exact hc m id e h
    | granted _ _ _ _ hhas hitems =>
      exact fun m id e h => by rw [hhas]; exact hc m id e (hitems ▸ h)
    | blocked hlock _ _ _ hhas hitems =>
      intro m id e h
      rw [hhas]
      rcases Multiset.mem_cons.mp (hitems ▸ h) with h | h
      · cases h
        exact hlock
      · exact hc m id e h
  cases h with
  | queued e hev hbusy =>
    intro m id e' h
    rw [hasLock_queue]
    rcases Multiset.mem_cons.mp (items_push cpu _ ▸ h) with h | h
    · cases h
    · exact hnamed m id e' h
  | idle hc => exact hnamed.freed hc
  | own hc _ hx => exact key hx (hnamed.freed hc)
  | @next c _ x q _ hc _ hqueue hx =>
    refine key hx fun m id e h => ?_
    rw [hasLock_queue]
    refine hnamed.freed hc m id e ?_
    rw [CpuState.items, hqueue, ← Multiset.cons_coe, Multiset.cons_add, Multiset.cons_add]
    exact Multiset.mem_cons_of_mem h

theorem countP_message (f : CpuEvent E → ℕ) (hf : ∀ e, f (.user e) = 0) (hle : ∀ ev, f ev ≤ 1)
    (t : ℚ) (ev : CpuEvent E) : (ev.message t).countP (fun x => f x.2 = 1) = f ev := by
  have key : ({(t, ev)} : Multiset (ℚ × CpuEvent E)).countP (fun x => f x.2 = 1) = f ev := by
    have h01 : f ev = 0 ∨ f ev = 1 := by have := hle ev; omega
    rw [← Multiset.cons_zero, Multiset.countP_cons, Multiset.countP_zero]
    rcases h01 with h | h <;> simp [h]
  cases ev <;> first | exact key | exact (hf _).symm

theorem CpuEvent.cores_le (ev : CpuEvent E) : ev.cores ≤ 1 := by cases ev <;> simp [cores]

theorem CpuEvent.wakeUps_le (ev : CpuEvent E) : ev.wakeUps ≤ 1 := by cases ev <;> simp [wakeUps]

/-- Every message of a CPU to itself holds a core or is a `CPU_EVENT`. -/
theorem CpuEvent.cores_add_wakeUps {ev : CpuEvent E} (h : ∀ e, ev ≠ .user e) :
    ev.cores + ev.wakeUps = 1 := by
  cases ev with
  | user e => exact absurd rfl (h e)
  | _ => rfl

omit [DecidableEq S] [DecidableEq K] in
/-- The messages a dispatch leaves behind hold its cores, and wake the CPU if it says so. -/
theorem Leaves.counts {P : Program S K E σ κ χ} {s : S} {t : ℚ} {st : σ} {d : Dispatch E}
    {a : Option (Act S K E σ κ)} {new : Multiset (ℚ × CpuEvent E)} (h : Leaves P s t st d a new) :
    new.countP (fun x => x.2.cores = 1) = d.cores ∧
      new.countP (fun x => x.2.wakeUps = 1) = d.wakeUps := by
  cases h with
  | idle => exact ⟨rfl, rfl⟩
  | wait => exact ⟨rfl, rfl⟩
  | @run e r t' hr ht => cases hc : r.cont <;> exact ⟨rfl, rfl⟩

/-! ## 2. Accounting -/

/-- The accounts of one CPU. -/
structure World.Accounts (W : World S K E σ κ) (s : S) : Prop where
  cores : 1 ≤ (W.servers s).cpu.cores
  held : W.coresHeld s = (W.servers s).cpu.busyCores
  le : (W.servers s).cpu.busyCores ≤ (W.servers s).cpu.cores
  named : (W.servers s).cpu.Named
  awake : (W.servers s).cpu.queue ≠ [] → 0 < (W.servers s).cpu.busyCores ∨ 0 < W.wakeUps s

variable {P : Program S K E σ κ χ} {conf : SimConfig S K E} {G : Record S K E σ κ → Prop}
  {W₀ W W' : World S K E σ κ} {tr : List (Record S K E σ κ)} {s : S}

omit [DecidableEq K] in
/-- The messages of the CPU after one of its events, counted. -/
theorem World.counts_own {ev : CpuEvent E} {d : Dispatch E} {t : ℚ} {st : σ}
    {a : Option (Act S K E σ κ)} {rest new : Multiset (ℚ × CpuEvent E)}
    (hold : W.messages s = ev.message t + rest) (hleaves : Leaves P s t st d a new)
    (hnew : W'.messages s = rest + new) :
    W'.coresHeld s + ev.cores = W.coresHeld s + d.cores ∧
      W'.wakeUps s + ev.wakeUps = W.wakeUps s + d.wakeUps ∧
      ev.cores ≤ W.coresHeld s ∧ ev.wakeUps ≤ W.wakeUps s := by
  obtain ⟨h1, h2⟩ := hleaves.counts
  have h3 := countP_message CpuEvent.cores (fun _ => rfl) CpuEvent.cores_le t ev
  have h4 := countP_message CpuEvent.wakeUps (fun _ => rfl) CpuEvent.wakeUps_le t ev
  simp only [World.coresHeld, World.wakeUps, hold, hnew, Multiset.countP_add, h1, h2, h3, h4]
  omega

/-- A fresh CPU has no items. -/
theorem CpuState.Fresh.items {cpu : CpuState E} (h : cpu.Fresh) : cpu.items = 0 := by
  have hlocks : ∀ l ∈ cpu.locks.map fun l : CpuLock E => (l.queue : Multiset (CpuListItem E)),
      l = 0 := by
    simp only [List.mem_map]
    rintro _ ⟨l, hl, rfl⟩
    rw [h.locks l hl]
    rfl
  have hrwlocks : ∀ l ∈ cpu.rwlocks.map fun l : CpuRwlock E =>
      (l.queue : Multiset (CpuListItem E)), l = 0 := by
    simp only [List.mem_map]
    rintro _ ⟨l, hl, rfl⟩
    rw [h.rwlocks l hl]
    rfl
  rw [CpuState.items, h.queue, List.sum_eq_zero hlocks, List.sum_eq_zero hrwlocks]
  rfl

/-- Nothing waits at a fresh lock. -/
theorem CpuState.Fresh.waiting {cpu : CpuState E} (h : cpu.Fresh) (m : Mode) (id : ℕ) :
    cpu.waiting m id = [] := by
  have hlock : (cpu.locks[id]?.map CpuLock.queue).getD [] = [] := by
    cases hl : cpu.locks[id]? with
    | none => rfl
    | some l => rw [h.locks l (List.mem_of_getElem? hl)]; rfl
  have hrwlock : (cpu.rwlocks[id]?.map CpuRwlock.queue).getD [] = [] := by
    cases hl : cpu.rwlocks[id]? with
    | none => rfl
    | some l => rw [h.rwlocks l (List.mem_of_getElem? hl)]; rfl
  cases m with
  | mutex => exact hlock
  | read => exact hrwlock
  | write => exact hrwlock

omit [DecidableEq K] in
theorem World.Fresh.accounts (h : W₀.Fresh) (s : S) : W₀.Accounts s where
  cores := (h s).1.cores
  held := by rw [World.coresHeld, (h s).2, (h s).1.busy]; rfl
  le := by rw [(h s).1.busy]; exact Nat.zero_le _
  named m id e he := by rw [(h s).1.items] at he; cases he
  awake hq := absurd (h s).1.queue hq

omit [DecidableEq K] in
/-- The accounts are kept by every step. -/
theorem World.CpuStep.accounts {t : ℚ} {tgt : Target S K E} {a : Option (Act S K E σ κ)}
    (h : World.CpuStep P W s t tgt a W') (hW : W.Accounts s) : W'.Accounts s := by
  cases h with
  | other _ _ hcpu hmessages =>
    refine ⟨?_, ?_, ?_, ?_, ?_⟩
    · rw [hcpu]; exact hW.cores
    · rw [hcpu, World.coresHeld, hmessages]; exact hW.held
    · rw [hcpu]; exact hW.le
    · rw [hcpu]; exact hW.named
    · rw [hcpu, World.wakeUps, hmessages]; exact hW.awake
  | @own ev _ _ d rest new hold hprocess hleaves hnew =>
    have hp := cpuProcessEvent_processed hprocess
    obtain ⟨hcores, hbusy, hle⟩ := hp.busy
    obtain ⟨hheld, hwake, hev, hev'⟩ := World.counts_own hold hleaves hnew
    have h1 := hW.cores
    have h2 := hW.held
    have h3 := hle hW.le
    refine ⟨?_, ?_, ?_, hp.named hW.named, fun hq => ?_⟩
    · omega
    · omega
    · omega
    · rcases hp.queue with ⟨rfl, hfull, e, rfl⟩ | ⟨-, hempty⟩ | ⟨hd, -⟩ | ⟨hd, -⟩
      · simp only [Dispatch.cores, CpuEvent.cores] at hbusy
        omega
      · exact absurd hempty hq
      · omega
      · omega

theorem World.Trace.accounts (hfresh : W₀.Fresh) (htrace : World.Trace P conf G W₀ W tr) (s : S) :
    W.Accounts s ∧ (W.servers s).cpu.cores = (W₀.servers s).cpu.cores := by
  induction htrace with
  | nil => exact ⟨hfresh.accounts s, rfl⟩
  | cons c _ hev hstep _ ih =>
    obtain ⟨-, -, -, h⟩ := World.step_cpu hev hstep s
    refine ⟨h.accounts ih.1, ?_⟩
    cases h with
    | other _ _ hcpu => rw [hcpu]; exact ih.2
    | own _ hprocess => rw [(cpuProcessEvent_processed hprocess).busy.1]; exact ih.2

/-- **Core accounting.**  In every state the busy cores of a CPU are those held by its pending
`CPU_FREE_CORE`, lock and unlock messages, and there are no more of them than cores.  The
assertions on their number never fail: an event that gives a core back finds a busy one, and if
an event cannot be processed, another assertion has failed.  While something waits for the CPU,
one of its messages is pending. -/
theorem cpu_cores (hfresh : W₀.Fresh) (htrace : World.Trace P conf G W₀ W tr) (s : S) :
    (W.servers s).cpu.cores = (W₀.servers s).cpu.cores ∧
    (W.servers s).cpu.busyCores = W.coresHeld s ∧
    W.coresHeld s ≤ (W.servers s).cpu.cores ∧
    (∀ t ev, (t, .server s ev) ∈ W.events → ev.cores ≤ (W.servers s).cpu.busyCores ∧
      (cpuProcessEvent (W.servers s).cpu ev = none → (W.servers s).cpu.Fault ev)) ∧
    ((W.servers s).cpu.queue ≠ [] →
      ∃ t ev, (t, .server s ev) ∈ W.events ∧ (ev.cores = 1 ∨ ev = .event)) := by
  obtain ⟨h, hcores⟩ := htrace.accounts hfresh s
  refine ⟨hcores, h.held.symm, h.held.trans_le h.le, fun t ev hev => ?_, fun hq => ?_⟩
  · have hbusy : ev.cores ≤ (W.servers s).cpu.busyCores := by
      by_cases hcore : ev.cores = 1
      · rw [hcore, ← h.held, World.coresHeld, Nat.one_le_iff_ne_zero, ← Nat.pos_iff_ne_zero,
          Multiset.countP_pos]
        refine ⟨(t, ev), World.mem_messages.mpr ⟨hev, ?_⟩, hcore⟩
        rintro e rfl
        cases hcore
      · have := ev.cores_le
        omega
    refine ⟨hbusy, fun hnone => ?_⟩
    by_contra hfault
    have := cpuProcessEvent_isSome hbusy h.le h.named hfault
    rw [hnone] at this
    cases this
  · rcases h.awake hq with hpos | hpos
    · rw [← h.held] at hpos
      obtain ⟨⟨t, ev⟩, hmem, hcore⟩ := Multiset.countP_pos.mp hpos
      exact ⟨t, ev, (World.mem_messages.mp hmem).1, .inl hcore⟩
    · obtain ⟨⟨t, ev⟩, hmem, hwake⟩ := Multiset.countP_pos.mp hpos
      refine ⟨t, ev, (World.mem_messages.mp hmem).1, .inr ?_⟩
      cases ev <;> first | rfl | cases hwake

/-! ## 3. A small program

One server with two cores and a mutex.  A job works, or asks for the mutex, goes on with it, and
rests after it. -/

inductive LockingJob
  | work
  | ask
  | inside
  | rest
  deriving DecidableEq

def jobs : Program Unit Unit LockingJob Unit Unit Unit where
  serve _ _ _ e := some <| match e with
    | .work => { state := () }
    | .ask => { state := (), cont := .lock .mutex 0 .inside }
    | .inside => { state := (), cont := .unlock .mutex 0 (some .rest) }
    | .rest => { state := () }
  client _ _ _ _ _ := some ((), [])

def jobsConf : SimConfig Unit Unit LockingJob := ⟨⟨fun _ _ => some 0, fun _ => 1⟩, fun _ => 0⟩

/-- Two jobs ask for the mutex, and one works. -/
def jobsWorld : World Unit Unit LockingJob Unit Unit where
  now := 0
  servers _ := { state := (), cpu := { cores := 2, locks := [{}] } }
  clients _ := { state := () }
  events := [(0, .server () (.user .ask)), (1, .server () (.user .ask)),
    (2, .server () (.user .work))]

/-- Which event is picked, and how long its handler takes. -/
def jobChoices (steps : List (ℕ × ℚ)) : List (Choice Unit) :=
  steps.map fun x => ⟨x.1, [], x.2, 0, ()⟩

/-- The second job asks for the mutex in vain: at time 2 its core is given up, and `CPU_EVENT`
is pending. -/
def jobsBlocked : List (ℕ × ℚ) := [(0, 1), (2, 10), (0, 1), (2, 1)]

theorem jobsWorld_fresh : jobsWorld.Fresh := by
  refine fun s => ⟨⟨by simp [jobsWorld], rfl, rfl, ?_, ?_⟩, rfl⟩
  · simp [jobsWorld]
  · simp [jobsWorld]

/-- The accounts while a job is blocked and the `CPU_EVENT` is pending. -/
theorem cpu_cores_blocked : ∃ W tr,
    World.Trace jobs jobsConf (fun _ => True) jobsWorld W tr ∧
      (W.servers ()).cpu.busyCores = 1 ∧ W.wakeUps () = 1 ∧ W.coresHeld () = 1 := by
  obtain ⟨W, tr, htrace, hseen⟩ := World.Trace.of_retrace jobs jobsConf jobsWorld (fun _ => True)
    (jobChoices jobsBlocked)
    (fun W => decide ((W.servers ()).cpu.busyCores = 1 ∧ W.wakeUps () = 1)) (by decide +kernel)
  obtain ⟨hbusy, hwake⟩ := of_decide_eq_true hseen
  obtain ⟨-, hheld, -⟩ := cpu_cores jobsWorld_fresh htrace ()
  exact ⟨W, tr, htrace, hbusy, hwake, hheld.symm.trans hbusy⟩

/-! ## 4. A blocked job and the assertion of `CPU_EVENT` -/

/-- The server an event arrives at from outside its CPU. -/
def Target.arrival? : Target S K E → Option S
  | .server s (.user _) => some s
  | _ => none

/-- An event that arrives at a CPU with a free core leaves one for every pending `CPU_EVENT`. -/
def LeavesCores (r : Record S K E σ κ) : Prop :=
  ∀ s ∈ r.target.arrival?,
    (r.before.servers s).cpu.busyCores < (r.before.servers s).cpu.cores →
      (r.before.servers s).cpu.busyCores + r.before.wakeUps s < (r.before.servers s).cpu.cores

instance : DecidablePred (LeavesCores (S := S) (K := K) (E := E) (σ := σ) (κ := κ)) := fun r =>
  inferInstanceAs (Decidable (∀ s ∈ r.target.arrival?, _))

/-- A core is kept for every pending `CPU_EVENT`. -/
theorem World.Trace.wakeUps_le (hfresh : W₀.Fresh)
    (htrace : World.Trace P conf LeavesCores W₀ W tr) (s : S) :
    (W.servers s).cpu.busyCores + W.wakeUps s ≤ (W.servers s).cpu.cores := by
  induction htrace with
  | nil =>
    rw [(hfresh s).1.busy, World.wakeUps, (hfresh s).2, Multiset.countP_zero]
    exact Nat.zero_le _
  | @cons W W' tr t tgt a c _ hev hstep hG ih =>
    obtain ⟨-, -, -, h⟩ := World.step_cpu hev hstep s
    cases h with
    | other _ _ hcpu hmessages =>
      rw [hcpu, World.wakeUps, hmessages]
      exact ih
    | @own ev _ _ d rest new hold hprocess hleaves hnew =>
      obtain ⟨hcores, hbusy, -⟩ := (cpuProcessEvent_processed hprocess).busy
      obtain ⟨-, hwake, -, -⟩ := World.counts_own hold hleaves hnew
      by_cases huser : ∃ e, ev = .user e
      · obtain ⟨e, rfl⟩ := huser
        have hroom := hG s rfl
        simp only [CpuEvent.cores, CpuEvent.wakeUps, Nat.add_zero] at hbusy hwake
        rcases cpuProcessEvent_user hprocess with ⟨-, -, rfl⟩ | ⟨hlt, -, rfl⟩
        · simp only [Dispatch.cores, Dispatch.wakeUps] at hbusy hwake
          omega
        · have : (W.servers s).cpu.busyCores + W.wakeUps s < (W.servers s).cpu.cores := hroom hlt
          simp only [Dispatch.cores, Dispatch.wakeUps] at hbusy hwake
          omega
      · -- a core or a wake-up is used up, and at most one of them replaces it
        have hone := CpuEvent.cores_add_wakeUps fun e he => huser ⟨e, he⟩
        have hd : d.cores + d.wakeUps ≤ 1 := by cases d <;> simp [Dispatch.cores, Dispatch.wakeUps]
        omega

/-- **The assertion of `CPU_EVENT`.**  If no event takes a core that is kept for a pending
`CPU_EVENT`, every `CPU_EVENT` finds a free core. -/
theorem cpuEvent_finds_free_core (hfresh : W₀.Fresh)
    (htrace : World.Trace P conf LeavesCores W₀ W tr) (s : S) (t : ℚ)
    (hev : (t, .server s .event) ∈ W.events) : cpuBusy (W.servers s).cpu = false := by
  have hle := htrace.wakeUps_le hfresh s
  have hpos : 0 < W.wakeUps s :=
    Multiset.countP_pos.mpr ⟨(t, .event), World.mem_messages.mpr ⟨hev, by simp⟩, rfl⟩
  simp only [cpuBusy, decide_eq_false_iff_not]
  omega

/-- The `CPU_EVENT` of the blocked job finds a free core. -/
theorem cpuEvent_finds_free_core_blocked : ∃ W tr,
    World.Trace jobs jobsConf LeavesCores jobsWorld W tr ∧
      (2, .server () .event) ∈ W.events ∧ cpuBusy (W.servers ()).cpu = false := by
  obtain ⟨W, tr, htrace, hseen⟩ := World.Trace.of_retrace jobs jobsConf jobsWorld LeavesCores
    (jobChoices jobsBlocked) (fun W => decide ((2, .server () .event) ∈ W.events))
    (by decide +kernel)
  have hev := of_decide_eq_true hseen
  exact ⟨W, tr, htrace, hev, cpuEvent_finds_free_core jobsWorld_fresh htrace () 2 hev⟩

/-- If the third job arrives before the `CPU_EVENT` of the same time, the `CPU_EVENT` is due and
finds both cores busy. -/
theorem cpuEvent_finds_busy_cpu : ∃ W tr,
    World.Trace jobs jobsConf (fun _ => True) jobsWorld W tr ∧
      (2, .server () .event) ∈ W.events ∧ W.now ≤ 2 ∧ (∀ ev ∈ W.events, 2 ≤ ev.1) ∧
      cpuBusy (W.servers ()).cpu = true := by
  obtain ⟨W, tr, htrace, hseen⟩ := World.Trace.of_retrace jobs jobsConf jobsWorld (fun _ => True)
    (jobChoices (jobsBlocked ++ [(0, 1)]))
    (fun W => decide ((2, .server () .event) ∈ W.events ∧ W.now ≤ 2 ∧
      (∀ ev ∈ W.events, 2 ≤ ev.1) ∧ cpuBusy (W.servers ()).cpu = true)) (by decide +kernel)
  exact ⟨W, tr, htrace, of_decide_eq_true hseen⟩

/-! ## 5. Work conservation -/

/-- The lock an unlock message with an event of its own gives back. -/
def Target.handover? : Target S K E → Option (S × Mode × ℕ)
  | .server s (.unlock m id (some _)) => some (s, m, id)
  | _ => none

/-- An unlock message with an event of its own, which wakes a waiter, finds as many `CPU_EVENT`s
pending as there are idle cores, or as there will be items in the queue. -/
def WakesCores (r : Record S K E σ κ) : Prop :=
  ∀ x ∈ r.target.handover?, ((r.before.servers x.1).cpu.waiter x.2.1 x.2.2).isSome →
    (r.before.servers x.1).cpu.cores ≤
        (r.before.servers x.1).cpu.busyCores + r.before.wakeUps x.1 ∨
      (r.before.servers x.1).cpu.queue.length < r.before.wakeUps x.1

instance : DecidablePred (WakesCores (S := S) (K := K) (E := E) (σ := σ) (κ := κ)) := fun r =>
  inferInstanceAs (Decidable (∀ x ∈ r.target.handover?, _))

/-- Every idle core, or everything that waits, has its `CPU_EVENT`; and `CPU_EVENT`s are due
now. -/
structure World.Conserving (W : World S K E σ κ) (s : S) : Prop where
  covered : (W.servers s).cpu.cores ≤ (W.servers s).cpu.busyCores + W.wakeUps s ∨
    (W.servers s).cpu.queue.length ≤ W.wakeUps s
  due : ∀ t, (t, .event) ∈ W.messages s → t = W.now

omit [DecidableEq K] in
/-- The cores and the queue after one of the events of the CPU. -/
theorem World.CpuStep.covered {ev : CpuEvent E} {t : ℚ} {a : Option (Act S K E σ κ)}
    {d : Dispatch E} {rest new : Multiset (ℚ × CpuEvent E)}
    (hold : W.messages s = ev.message t + rest)
    (hprocess : cpuProcessEvent (W.servers s).cpu ev = some ((W'.servers s).cpu, d))
    (hleaves : Leaves P s t (W.servers s).state d a new) (hnew : W'.messages s = rest + new)
    (hG : WakesCores ⟨W, t, .server s ev, a⟩)
    (h : (W.servers s).cpu.cores ≤ (W.servers s).cpu.busyCores + W.wakeUps s ∨
      (W.servers s).cpu.queue.length ≤ W.wakeUps s) :
    (W'.servers s).cpu.cores ≤ (W'.servers s).cpu.busyCores + W'.wakeUps s ∨
      (W'.servers s).cpu.queue.length ≤ W'.wakeUps s := by
  have hp := cpuProcessEvent_processed hprocess
  obtain ⟨hcores, hbusy, -⟩ := hp.busy
  obtain ⟨-, hwake, -, hev⟩ := World.counts_own hold hleaves hnew
  rcases hp.queue with ⟨rfl, hfull, e, rfl⟩ | ⟨-, hempty⟩ | ⟨hd, hown, hq⟩ | ⟨hd, hown, hq, hne⟩
  · simp only [Dispatch.cores, CpuEvent.cores] at hbusy
    omega
  · right
    rw [hempty]
    exact Nat.zero_le _
  · rw [hq]
    cases ev with
    | freeCore => exact absurd rfl hown
    | event => exact absurd rfl hown
    | lock m id e =>
      simp only [CpuEvent.cores, CpuEvent.wakeUps, CpuState.line] at hbusy hwake ⊢
      omega
    | user e =>
      simp only [CpuEvent.cores, CpuEvent.wakeUps, CpuState.line] at hbusy hwake ⊢
      omega
    | unlock m id e =>
      cases e with
      | none => exact absurd rfl hown
      | some e =>
        -- the only place where the queue grows and no core is taken for it
        simp only [CpuEvent.cores, CpuEvent.wakeUps, CpuState.line] at hbusy hwake ⊢
        cases hw : (W.servers s).cpu.waiter m id with
        | none =>
          simp only [Option.toList_none, List.nil_append]
          omega
        | some x =>
          have hroom : (W.servers s).cpu.cores ≤ (W.servers s).cpu.busyCores + W.wakeUps s ∨
              (W.servers s).cpu.queue.length < W.wakeUps s :=
            hG (s, m, id) rfl (by rw [hw]; rfl)
          simp only [Option.toList_some, List.cons_append, List.nil_append, List.length_cons]
          omega
  · rw [hq, List.length_tail]
    have hpos : 0 < ((W.servers s).cpu.line ev).length := List.length_pos_iff.mpr hne
    cases ev with
    | freeCore =>
      simp only [CpuEvent.cores, CpuEvent.wakeUps, CpuState.line] at hbusy hwake hpos ⊢
      omega
    | event =>
      simp only [CpuEvent.cores, CpuEvent.wakeUps, CpuState.line] at hbusy hwake hpos hev ⊢
      omega
    | unlock m id e =>
      simp only [CpuEvent.cores, CpuEvent.wakeUps, CpuState.line] at hbusy hwake hpos ⊢
      cases (W.servers s).cpu.waiter m id <;>
        simp only [Option.toList_none, Option.toList_some, List.nil_append, List.cons_append,
          List.length_cons] at hpos ⊢ <;> omega
    | lock m id e => cases hown
    | user e => cases hown

theorem World.Trace.conserving (hfresh : W₀.Fresh)
    (htrace : World.Trace P conf WakesCores W₀ W tr) (s : S) : W.Conserving s := by
  induction htrace with
  | nil =>
    refine ⟨.inr ?_, fun t ht => ?_⟩
    · rw [(hfresh s).1.queue]
      exact Nat.zero_le _
    · rw [(hfresh s).2] at ht
      cases ht
  | @cons W W' tr t tgt a c _ hev hstep hG ih =>
    obtain ⟨hnow, hmin, hnow', h⟩ := World.step_cpu hev hstep s
    -- a pending `CPU_EVENT` is due, so time does not pass before it
    have hdue : ∀ t', (t', .event) ∈ W.messages s → t' = t := by
      intro t' ht'
      have h1 := ih.due t' ht'
      have h2 := hmin _ (World.mem_messages.mp ht').1
      exact le_antisymm (h1 ▸ hnow) h2
    cases h with
    | other _ _ hcpu hmessages =>
      refine ⟨?_, fun t' ht' => ?_⟩
      · rw [hcpu, World.wakeUps, hmessages]
        exact ih.covered
      · rw [hnow']
        exact hdue t' (hmessages ▸ ht')
    | own hold hprocess hleaves hnew =>
      refine ⟨World.CpuStep.covered hold hprocess hleaves hnew hG ih.covered, fun t' ht' => ?_⟩
      rw [hnow']
      rcases Multiset.mem_add.mp (hnew ▸ ht') with ht' | ht'
      · exact hdue t' (hold ▸ Multiset.mem_add.mpr (.inr ht'))
      · cases hleaves with
        | idle => cases ht'
        | wait => exact congrArg Prod.fst (Multiset.mem_singleton.mp ht')
        | @run e r t'' hr ht =>
          have := congrArg Prod.snd (Multiset.mem_singleton.mp ht')
          cases hc : r.cont <;> rw [hc] at this <;> cases this

/-- **Work conservation.**  If no unlock message wakes a waiter behind the back of idle cores,
something waits for the CPU only while all cores are busy or a `CPU_EVENT` is due. -/
theorem cpu_work_conserving (hfresh : W₀.Fresh)
    (htrace : World.Trace P conf WakesCores W₀ W tr) (s : S)
    (hqueue : (W.servers s).cpu.queue ≠ []) :
    (W.servers s).cpu.busyCores = (W.servers s).cpu.cores ∨
      (W.now, .server s .event) ∈ W.events := by
  have hle := (htrace.accounts hfresh s).1.le
  obtain ⟨hcovered, hdue⟩ := htrace.conserving hfresh s
  by_cases hwake : 0 < W.wakeUps s
  · right
    obtain ⟨⟨t, ev⟩, hmem, hev⟩ := Multiset.countP_pos.mp hwake
    obtain rfl : ev = .event := by cases ev <;> first | rfl | cases hev
    rw [← hdue t hmem]
    exact (World.mem_messages.mp hmem).1
  · left
    have := List.length_pos_iff.mpr hqueue
    omega

/-- Two jobs hold the cores, and the third waits. -/
theorem cpu_work_conserving_queued : ∃ W tr,
    World.Trace jobs jobsConf WakesCores jobsWorld W tr ∧ (W.servers ()).cpu.queue ≠ [] ∧
      ((W.servers ()).cpu.busyCores = (W.servers ()).cpu.cores ∨
        (W.now, .server () .event) ∈ W.events) := by
  obtain ⟨W, tr, htrace, hseen⟩ := World.Trace.of_retrace jobs jobsConf jobsWorld WakesCores
    (jobChoices [(0, 10), (0, 10), (0, 1)])
    (fun W => decide ((W.servers ()).cpu.queue ≠ [])) (by decide +kernel)
  have hqueue := of_decide_eq_true hseen
  exact ⟨W, tr, htrace, hqueue, cpu_work_conserving jobsWorld_fresh htrace () hqueue⟩

/-- The first job gives the mutex back and rests: the second is in the queue, the other core is
idle and no `CPU_EVENT` is pending. -/
theorem waiter_left_behind : ∃ W tr,
    World.Trace jobs jobsConf (fun _ => True) jobsWorld W tr ∧
      (W.servers ()).cpu.queue ≠ [] ∧
      (W.servers ()).cpu.busyCores < (W.servers ()).cpu.cores ∧
      ∀ t, (t, .server () .event) ∉ W.events := by
  obtain ⟨W, tr, htrace, hseen⟩ := World.Trace.of_retrace jobs jobsConf jobsWorld (fun _ => True)
    (jobChoices (jobsBlocked ++ [(2, 1), (0, 1), (1, 1), (0, 5)]))
    (fun W => decide ((W.servers ()).cpu.queue ≠ [] ∧
      (W.servers ()).cpu.busyCores < (W.servers ()).cpu.cores ∧
      ∀ ev ∈ W.events, ev.2 ≠ .server () .event)) (by decide +kernel)
  obtain ⟨hqueue, hbusy, hnone⟩ := of_decide_eq_true hseen
  exact ⟨W, tr, htrace, hqueue, hbusy, fun t hev => hnone _ hev rfl⟩

end CCSim
