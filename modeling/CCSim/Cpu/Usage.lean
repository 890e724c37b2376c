/-
# Runs with the statistics of the CPUs

A `Simulation` is a world together with the statistics of its CPUs and their pending `CPU_STATS`
events.  Handlers see none of it: a run of a simulation is a run of its world, with `CPU_STATS`
events in between (`Simulation.Trace.world`).

Two things are expected of these statistics, and the code does neither.

* The time a CPU counts as busy is the time its cores were busy.  But `elapsed_time` is one field:
  when a lock message is taken from the CPU queue, the `cpu_process` of the message adds to the
  statistics what is left in it, the time of the handler that ran inside it, once more, or the time
  of a message that found its lock taken and holds no core.  And what a handler uses after it asked
  for a lock is counted, although its core goes on with the lock message before that.  Apart from
  this the account is exact (`cpu_usage`).
* The sample of the maximal queue length is the maximal length since the last sample.  But nothing
  calls `cpu_stats_queue_changed`, so the maximum stays zero (`cpu_max_queue_size`).
-/
import CCSim.Cpu.Cores
import CCSim.Cpu.Statistics
import Mathlib.Algebra.Order.BigOperators.Group.List
import Mathlib.Tactic.Ring

namespace CCSim

variable {S K E σ κ χ : Type}

/-! ## 1. Calls of `cpu_stats_event_processed` -/

/-- The number of a lock message that asks for a lock in `event.h`. -/
def Mode.lockType : Mode → ℕ
  | .mutex => 7
  | .read => 9
  | .write => 11

/-- What `cpu_process_next_in_queue` takes from the CPU queue in an event. -/
def CpuState.shifts (cpu : CpuState E) (ev : CpuEvent E) : Option (CpuListItem E) :=
  if ev.own.isNone then (cpu.line ev).head? else none

/-- The time a handler uses after it asked for a lock. -/
def Choice.afterLock (c : Choice χ) : Cont E → ℚ
  | .lock _ _ _ => c.after
  | _ => 0

/-- `elapsed_time` at the end of an event, if `cpu_process` was called in it: what its handler has
used, or, if there is none, the time of the lock message that was blocked. -/
def Choice.elapsedTime (c : Choice χ) : Option (Act S K E σ κ) → ℚ
  | some (.server _ _ _ _ r) => c.draws.sum + c.last + c.afterLock r.cont
  | _ => c.last

/-- The calls of `cpu_stats_event_processed` in an event, each a type and the elapsed time: that of
the handler, and then that of the lock message taken from the CPU queue. -/
def cpuStatsCalls (types : E → ℕ) (c : Choice χ) (item : Option (CpuListItem E))
    (a : Option (Act S K E σ κ)) : List (ℕ × ℚ) :=
  (match a with
    | some (.server _ _ e _ _) => [(types e, c.elapsedTime a)]
    | _ => []) ++
  match item with
    | some (.lock m _ _) => [(m.lockType, c.elapsedTime a)]
    | _ => []

/-! ## 2. Simulations -/

/-- A world with the statistics of its CPUs, and the time of the next `CPU_STATS` of each. -/
structure Simulation (S K E σ κ : Type) where
  world : World S K E σ κ
  now : ℚ
  stats : S → CpuStats
  due : S → ℚ

/-- `cpu_setup`: the first `CPU_STATS` is due after one `cpu_stats_interval`. -/
def Simulation.setup (W : World S K E σ κ) (interval : ℚ) : Simulation S K E σ κ :=
  ⟨W, W.now, fun _ => {}, fun _ => W.now + interval⟩

/-- One entry of the history of a simulation, with the simulation before it. -/
inductive Entry (S K E σ κ χ : Type)
  | event (before : Simulation S K E σ κ) (time : ℚ) (target : Target S K E)
      (act : Option (Act S K E σ κ)) (c : Choice χ)
  | stats (before : Simulation S K E σ κ) (s : S)

def Entry.before : Entry S K E σ κ χ → Simulation S K E σ κ
  | .event X _ _ _ _ => X
  | .stats X _ => X

def Entry.time : Entry S K E σ κ χ → ℚ
  | .event _ t _ _ _ => t
  | .stats X s => X.due s

variable [DecidableEq S] [DecidableEq K] [Fintype S]

/-- `CPU_STATS` of `s`: its time has come before everything else. -/
def Simulation.sample (interval : ℚ) (X : Simulation S K E σ κ) (s : S) :
    Option (Simulation S K E σ κ) := do
  guard (X.now ≤ X.due s ∧ (∀ ev ∈ X.world.events, X.due s ≤ ev.1) ∧ ∀ s', X.due s ≤ X.due s')
  pure { X with
    now := X.due s
    stats := Function.update X.stats s
      (cpuStatsUpdate (X.stats s) (X.world.servers s).cpu.queue.length)
    due := Function.update X.due s (X.due s + interval) }

/-- Any other event.  A message that is blocked has used time, as `cpu_process` asserts. -/
def Simulation.process (P : Program S K E σ κ χ) (conf : SimConfig S K E) (types : E → ℕ)
    (c : Choice χ) (X : Simulation S K E σ κ) :
    Option (Simulation S K E σ κ × Option (Act S K E σ κ)) := do
  let (t, target) ← X.world.events[c.pick]?
  guard (X.now ≤ t ∧ ∀ s, t ≤ X.due s)
  let (W, a) ← X.world.step P conf c
  match target with
  | .client _ _ => pure ({ X with world := W, now := t }, a)
  | .server s ev =>
    let item := (X.world.servers s).cpu.shifts ev
    guard (item.isNone ∨ a.isSome ∨ 0 < c.last)
    let stats := (cpuStatsCalls types c item a).foldl
      (fun stats call => cpuStatsEventProcessed stats call.2 call.1) (X.stats s)
    pure ({ X with world := W, now := t, stats := Function.update X.stats s stats }, a)

/-- `X` is reached from `X₀` with the history `tr`, the latest first. -/
inductive Simulation.Trace (P : Program S K E σ κ χ) (conf : SimConfig S K E) (types : E → ℕ)
    (interval : ℚ) (X₀ : Simulation S K E σ κ) :
    Simulation S K E σ κ → List (Entry S K E σ κ χ) → Prop
  | nil : Simulation.Trace P conf types interval X₀ X₀ []
  | event {X X' : Simulation S K E σ κ} {tr : List (Entry S K E σ κ χ)} {t : ℚ}
      {tgt : Target S K E} {a : Option (Act S K E σ κ)} (c : Choice χ)
      (htrace : Simulation.Trace P conf types interval X₀ X tr)
      (hev : X.world.events[c.pick]? = some (t, tgt))
      (hstep : X.process P conf types c = some (X', a)) :
      Simulation.Trace P conf types interval X₀ X' (.event X t tgt a c :: tr)
  | stats {X X' : Simulation S K E σ κ} {tr : List (Entry S K E σ κ χ)} (s : S)
      (htrace : Simulation.Trace P conf types interval X₀ X tr)
      (hstep : X.sample interval s = some X') :
      Simulation.Trace P conf types interval X₀ X' (.stats X s :: tr)

variable {P : Program S K E σ κ χ} {conf : SimConfig S K E} {types : E → ℕ} {interval : ℚ}
  {X₀ X X' : Simulation S K E σ κ} {tr : List (Entry S K E σ κ χ)} {c : Choice χ} {t : ℚ}
  {tgt : Target S K E} {a : Option (Act S K E σ κ)} {s : S}

/-- What a step does, besides the step of the world. -/
theorem Simulation.process_eq (hev : X.world.events[c.pick]? = some (t, tgt))
    (h : X.process P conf types c = some (X', a)) :
    X.now ≤ t ∧ X.world.step P conf c = some (X'.world, a) ∧ X'.now = t ∧ X'.due = X.due ∧
      (∀ s ev, tgt = .server s ev →
        ((X.world.servers s).cpu.shifts ev = none ∨ a.isSome ∨ 0 < c.last) ∧
        X'.stats s = (cpuStatsCalls types c ((X.world.servers s).cpu.shifts ev) a).foldl
          (fun stats call => cpuStatsEventProcessed stats call.2 call.1) (X.stats s)) ∧
      ∀ s, (∀ ev, tgt ≠ .server s ev) → X'.stats s = X.stats s := by
  simp only [Simulation.process, hev, Option.bind_eq_bind, Option.bind_some,
    Option.bind_eq_some_iff, Option.guard_eq_some', Prod.exists] at h
  obtain ⟨_, ⟨hnow, -⟩, W, b, hstep, h⟩ := h
  cases tgt with
  | client k e =>
    simp only [Option.pure_def, Option.some.injEq, Prod.mk.injEq] at h
    obtain ⟨rfl, rfl⟩ := h
    exact ⟨hnow, hstep, rfl, rfl, by simp, fun _ _ => rfl⟩
  | server s ev =>
    simp only [Option.bind_eq_some_iff, Option.guard_eq_some', Option.pure_def,
      Option.some.injEq, Prod.mk.injEq, Option.isNone_iff_eq_none] at h
    obtain ⟨_, hused, rfl, rfl⟩ := h
    refine ⟨hnow, hstep, rfl, rfl, ?_, fun s' hs' => ?_⟩
    · rintro s' ev' ⟨⟩
      exact ⟨hused, Function.update_self _ _ _⟩
    · refine Function.update_of_ne ?_ _ _
      rintro rfl
      exact hs' ev rfl

omit [DecidableEq K] in
theorem Simulation.sample_eq (h : X.sample interval s = some X') :
    X.now ≤ X.due s ∧ X' = { X with
      now := X.due s
      stats := Function.update X.stats s
        (cpuStatsUpdate (X.stats s) (X.world.servers s).cpu.queue.length)
      due := Function.update X.due s (X.due s + interval) } := by
  simp only [Simulation.sample, Option.bind_eq_bind, Option.bind_eq_some_iff,
    Option.guard_eq_some', Option.pure_def, Option.some.injEq] at h
  obtain ⟨_, ⟨hnow, -⟩, rfl⟩ := h
  exact ⟨hnow, rfl⟩

/-- A run of a simulation is a run of its world. -/
theorem Simulation.Trace.world (h : Simulation.Trace P conf types interval X₀ X tr) :
    ∃ wtr, World.Trace P conf (fun _ => True) X₀.world X.world wtr := by
  induction h with
  | nil => exact ⟨[], .nil⟩
  | event c htrace hev hstep ih =>
    obtain ⟨wtr, hworld⟩ := ih
    exact ⟨_, .cons c hworld hev (Simulation.process_eq hev hstep).2.1 trivial⟩
  | stats s htrace hstep ih =>
    obtain ⟨-, rfl⟩ := Simulation.sample_eq hstep
    exact ih

/-! ## 3. The time a handler takes -/

omit [Fintype S] in
/-- The CPU times between the things a server hands over add up. -/
theorem emitServerAll_elapsed {s : S} {now : ℚ} :
    ∀ {outs : List (Out S K E)} {draws : List ℚ} {net net' : NetworkState (S ⊕ K)}
      {elapsed elapsed' : ℚ} {evs : List (ℚ × Target S K E)},
      emitServerAll conf s now net elapsed outs draws = some (net', elapsed', evs) →
        elapsed' = elapsed + draws.sum ∧ ∀ d ∈ draws, 0 ≤ d
  | [], [], _, _, _, _, _, h => by
    simp only [emitServerAll, Option.some.injEq, Prod.mk.injEq] at h
    obtain ⟨-, rfl, -⟩ := h
    simp
  | o :: outs, d :: draws, _, _, elapsed, _, _, h => by
    simp only [emitServerAll, Option.bind_eq_bind, Option.bind_eq_some_iff, Prod.exists,
      Option.guard_eq_some', Option.pure_def, Option.some.injEq, Prod.mk.injEq] at h
    obtain ⟨_, hd, net₁, t, tgt, -, net₂, el₂, evs₂, h₂, -, rfl, -⟩ := h
    obtain ⟨rfl, hdraws⟩ := emitServerAll_elapsed h₂
    exact ⟨by rw [List.sum_cons, add_assoc], List.forall_mem_cons.mpr ⟨hd, hdraws⟩⟩
  | [], _ :: _, _, _, _, _, _, h => by simp [emitServerAll] at h
  | _ :: _, [], _, _, _, _, _, h => by simp [emitServerAll] at h

omit [DecidableEq S] [DecidableEq K] [Fintype S] in
/-- What a handler uses after it asked for a lock is not negative. -/
theorem finish_after {s : S} {now elapsed after : ℚ} {cpu : CpuState E} {noTime : Bool}
    {cont : Cont E} {ev : ℚ × Target S K E}
    (h : finish s now cpu elapsed after noTime cont = some ev) :
    ∀ m id e, cont = .lock m id e → 0 ≤ after := by
  rintro m id e rfl
  simp only [finish, Option.bind_eq_bind, Option.bind_eq_some_iff, Option.guard_eq_some'] at h
  obtain ⟨_, ⟨hafter, -⟩, -⟩ := h
  exact hafter

omit [Fintype S] in
/-- A handler keeps its core for the time it uses before its last call. -/
theorem World.step_reserves {W W' : World S K E σ κ} {ev : CpuEvent E} {t' : ℚ} {e : E} {st : σ}
    {r : Outcome S K E σ} (hev : W.events[c.pick]? = some (t, .server s ev))
    (h : W.step P conf c = some (W', some (.server s t' e st r))) :
    W'.messages s + ev.message t =
        W.messages s + {(t + (c.draws.sum + c.last), r.cont.message)} ∧
      0 ≤ c.draws.sum + c.last ∧ ∀ m id e, r.cont = .lock m id e → 0 ≤ c.after := by
  have hold := cpuMessages_eraseIdx s hev
  rw [message?_self] at hold
  simp only [World.step, Option.bind_eq_bind, hev, Option.bind_some, Option.bind_eq_some_iff,
    Option.guard_eq_some', World.stepServer, Prod.exists] at h
  obtain ⟨_, -, cpu, d, -, h⟩ := h
  cases d with
  | idle => simp at h
  | wait => simp at h
  | run e =>
    simp only [Option.bind_eq_some_iff, Prod.exists, Option.pure_def, Option.some.injEq,
      Prod.mk.injEq, Option.guard_eq_some'] at h
    obtain ⟨r, -, net, elapsed, evs, hem, _, hlast, t₁, tgt, hfin, rfl, hact⟩ := h
    cases hact
    obtain ⟨rfl, hdraws⟩ := emitServerAll_elapsed hem
    obtain ⟨rfl, rfl⟩ := finish_message hfin
    have hnew : cpuMessages s [(t + (0 + c.draws.sum + c.last),
        (.server s r.cont.message : Target S K E))] =
          {(t + (c.draws.sum + c.last), r.cont.message)} := by
      rw [zero_add]
      cases r.cont <;> simp [cpuMessages, Target.message?, Cont.message]
    refine ⟨?_, add_nonneg (List.sum_nonneg hdraws) hlast, finish_after hfin⟩
    rw [World.messages, World.messages, hold, World.setServer, cpuMessages_append,
      cpuMessages_append, cpuMessages_eq_zero (emitServerAll_message hem), zero_add, hnew]
    dsimp only
    abel

/-! ## 4. Usage -/

/-- The time until these messages give their cores back. -/
def owed (messages : Multiset (ℚ × CpuEvent E)) (now : ℚ) : ℚ :=
  (messages.map fun x => (x.2.cores : ℚ) * (x.1 - now)).sum

/-- The integral of the number of busy cores of `s` over a history. -/
def occupied (s : S) (tr : List (Entry S K E σ κ χ)) : ℚ :=
  (tr.map fun r => ((r.before.world.servers s).cpu.busyCores : ℚ) *
    (r.time - r.before.now)).sum

/-- The time for which a handler call keeps its core. -/
def Choice.coreTime (c : Choice χ) : Option (Act S K E σ κ) → ℚ
  | some (.server _ _ _ _ _) => c.draws.sum + c.last
  | _ => 0

/-- The time that is counted although the core has gone on with a lock message. -/
def Choice.afterTime (c : Choice χ) : Option (Act S K E σ κ) → ℚ
  | some (.server _ _ _ _ r) => c.afterLock r.cont
  | _ => 0

/-- The time that is counted for a lock message. -/
def Choice.lockTime (c : Choice χ) (a : Option (Act S K E σ κ)) : Option (CpuListItem E) → ℚ
  | some (.lock _ _ _) => c.elapsedTime a
  | _ => 0

/-- The time an event adds to the statistics of `s` for which no core is busy, or which is counted
already. -/
def Entry.overcharge (s : S) : Entry S K E σ κ χ → ℚ
  | .event X _ (.server s' ev) a c =>
    if s' = s then c.afterTime a + c.lockTime a ((X.world.servers s).cpu.shifts ev) else 0
  | _ => 0

/-- If a lock message of `s` is taken from the CPU queue, no time is used in the event; and a
handler of `s` uses none after it asked for a lock. -/
def Entry.ChargesOnce (s : S) : Entry S K E σ κ χ → Prop
  | .event X _ (.server s' ev) a c => s' = s →
      (∀ m id e, (X.world.servers s).cpu.shifts ev = some (.lock m id e) → c.elapsedTime a = 0) ∧
      ∀ t e st r m id e', a = some (.server s t e st r) → r.cont = .lock m id e' → c.after = 0
  | _ => True

omit [DecidableEq S] [DecidableEq K] [Fintype S] in
theorem owed_add (l l' : Multiset (ℚ × CpuEvent E)) (now : ℚ) :
    owed (l + l') now = owed l now + owed l' now := by
  rw [owed, Multiset.map_add, Multiset.sum_add]
  rfl

omit [DecidableEq S] [DecidableEq K] [Fintype S] in
/-- As time passes, every core that is held is owed less. -/
theorem owed_later (messages : Multiset (ℚ × CpuEvent E)) (now now' : ℚ) :
    owed messages now = owed messages now' +
      (messages.countP fun x => x.2.cores = 1 : ℕ) * (now' - now) := by
  induction messages using Multiset.induction with
  | empty => simp [owed]
  | cons x messages ih =>
    have h01 : x.2.cores = 0 ∨ x.2.cores = 1 := by
      have := x.2.cores_le
      omega
    rw [← Multiset.singleton_add, owed_add, owed_add, ih, Multiset.countP_add]
    simp only [owed, Multiset.map_singleton, Multiset.sum_singleton]
    rw [← Multiset.cons_zero, Multiset.countP_cons, Multiset.countP_zero]
    rcases h01 with h | h
    · simp [h]
    · simp [h]
      ring

omit [DecidableEq S] [DecidableEq K] [Fintype S] in
/-- An event that is due owes nothing. -/
theorem owed_message (ev : CpuEvent E) (t : ℚ) : owed (ev.message t) t = 0 := by
  cases ev <;> simp [owed, CpuEvent.message]

/-- An event in which nothing is taken takes nothing from the queue. -/
theorem Processed.shifts_idle {cpu cpu' : CpuState E} {ev : CpuEvent E}
    (h : Processed cpu ev cpu' .idle) : cpu.shifts ev = none := by
  cases h with
  | queued e hev hbusy =>
    subst hev
    rfl
  | idle hc hown hqueue =>
    rw [CpuState.shifts, ← hc.queue, hqueue]
    simp
  | own hc hown hx => cases hx
  | next hc hown hqueue hx => cases hx

omit [DecidableEq S] [DecidableEq K] [Fintype S] in
/-- What the calls of `cpu_stats_event_processed` add up to. -/
theorem cpuStatsCalls_sum (types : E → ℕ) (c : Choice χ) (item : Option (CpuListItem E))
    (a : Option (Act S K E σ κ)) : ((cpuStatsCalls types c item a).map Prod.snd).sum =
      c.coreTime a + (c.afterTime a + c.lockTime a item) := by
  rcases a with _ | _ | _ <;> rcases item with _ | _ | _ <;>
    simp [cpuStatsCalls, Choice.elapsedTime, Choice.coreTime, Choice.afterTime, Choice.lockTime,
      add_assoc]

/-- What an event of `s` adds to its statistics is the time its handler keeps a core, and what is
counted too much. -/
theorem Simulation.process_calls {ev : CpuEvent E}
    (hev : X.world.events[c.pick]? = some (t, .server s ev))
    (hstep : X.process P conf types c = some (X', a)) :
    ((cpuStatsCalls types c ((X.world.servers s).cpu.shifts ev) a).map Prod.snd).sum +
        owed (X.world.messages s) t =
      owed (X'.world.messages s) t + (Entry.event X t (.server s ev) a c).overcharge s := by
  obtain ⟨-, hworld, -⟩ := Simulation.process_eq hev hstep
  obtain ⟨-, -, -, h⟩ := World.step_cpu hev hworld s
  have howed := owed_message ev t
  rw [cpuStatsCalls_sum, Entry.overcharge, if_pos rfl]
  suffices hcore : c.coreTime a + owed (X.world.messages s) t = owed (X'.world.messages s) t by
    linarith
  cases h with
  | other htgt => exact absurd rfl (htgt ev)
  | own hold hprocess hleaves hnew =>
    cases hleaves with
    | idle =>
      rw [hold, hnew, owed_add, owed_add, howed]
      simp [Choice.coreTime, owed]
    | wait =>
      rw [hold, hnew, owed_add, owed_add, howed]
      simp [Choice.coreTime, owed, CpuEvent.cores]
    | @run e r t' hr ht =>
      have hcores : r.cont.message.cores = 1 := by cases r.cont <;> rfl
      have hsame := congrArg (owed · t) (World.step_reserves hev hworld).1
      simp only [owed_add, howed, add_zero] at hsame
      rw [hsame]
      simp [Choice.coreTime, owed, hcores, add_comm]

omit [DecidableEq S] [DecidableEq K] [Fintype S] in
theorem Choice.afterLock_nonneg {c : Choice χ} {cont : Cont E}
    (h : ∀ m id e, cont = .lock m id e → 0 ≤ c.after) :
    0 ≤ c.afterLock cont ∧ (c.afterLock cont = 0 ↔ ∀ m id e, cont = .lock m id e → c.after = 0) := by
  cases cont with
  | lock m id e => exact ⟨h m id e rfl, fun h0 _ _ _ _ => h0, fun h0 => h0 m id e rfl⟩
  | done => simp [Choice.afterLock]
  | unlock m id e => simp [Choice.afterLock]

omit [DecidableEq S] [DecidableEq K] [Fintype S] in
theorem Choice.lockTime_nonneg (c : Choice χ) (a : Option (Act S K E σ κ))
    (item : Option (CpuListItem E)) (h : item ≠ none → 0 ≤ c.elapsedTime a) :
    0 ≤ c.lockTime a item ∧
      (c.lockTime a item = 0 ↔ ∀ m id e, item = some (.lock m id e) → c.elapsedTime a = 0) := by
  rcases item with _ | _ | ⟨m, id, e⟩
  · simp [Choice.lockTime]
  · simp [Choice.lockTime]
  · exact ⟨h (by simp), fun h0 _ _ _ _ => h0, fun h0 => h0 m id e rfl⟩

/-- No event counts too little, and one that charges once counts nothing too much. -/
theorem Simulation.process_overcharge (hev : X.world.events[c.pick]? = some (t, tgt))
    (hstep : X.process P conf types c = some (X', a)) :
    0 ≤ (Entry.event X t tgt a c).overcharge s ∧
      ((Entry.event X t tgt a c).overcharge s = 0 ↔ (Entry.event X t tgt a c).ChargesOnce s) := by
  rcases tgt with ⟨s', ev⟩ | ⟨k, e⟩
  · by_cases hs : s' = s
    · subst hs
      obtain ⟨-, hworld, -, -, hserver, -⟩ := Simulation.process_eq hev hstep
      obtain ⟨hused, -⟩ := hserver _ ev rfl
      obtain ⟨-, -, -, h⟩ := World.step_cpu hev hworld s'
      simp only [Entry.overcharge, Entry.ChargesOnce, if_true, true_imp_iff]
      cases h with
      | other htgt => exact absurd rfl (htgt ev)
      | own hold hprocess hleaves hnew =>
        -- with a handler call or without
        cases hleaves with
        | idle =>
          have hshifts := (cpuProcessEvent_processed hprocess).shifts_idle
          simp [Choice.afterTime, Choice.lockTime, hshifts]
        | wait =>
          have hnonneg : (X.world.servers s').cpu.shifts ev ≠ none →
              0 ≤ c.elapsedTime (none : Option (Act S K E σ κ)) := by
            intro hne
            rcases hused with h | h | h
            · exact absurd h hne
            · cases h
            · exact h.le
          obtain ⟨hnonneg, hzero⟩ := c.lockTime_nonneg none _ hnonneg
          simp only [Choice.afterTime, zero_add, hzero]
          exact ⟨hnonneg, fun h => ⟨h, by simp⟩, fun h => h.1⟩
        | @run e r t' hr ht =>
          obtain ⟨-, htime, hafter⟩ := World.step_reserves hev hworld
          obtain ⟨hnonneg, hzero⟩ := Choice.afterLock_nonneg hafter
          obtain ⟨hnonneg', hzero'⟩ := c.lockTime_nonneg
            (some (.server s' t e (X.world.servers s').state r))
            ((X.world.servers s').cpu.shifts ev) fun _ => add_nonneg htime hnonneg
          simp only [Choice.afterTime]
          refine ⟨add_nonneg hnonneg hnonneg', ?_⟩
          rw [add_eq_zero_iff_of_nonneg hnonneg hnonneg', hzero, hzero']
          constructor
          · rintro ⟨h1, h2⟩
            refine ⟨h2, ?_⟩
            rintro _ _ _ _ m id e' ⟨⟩ hcont
            exact h1 m id e' hcont
          · rintro ⟨h1, h2⟩
            exact ⟨fun m id e' hcont => h2 _ _ _ _ m id e' rfl hcont, h1⟩
    · simp [Entry.overcharge, Entry.ChargesOnce, hs]
  · simp [Entry.overcharge, Entry.ChargesOnce]

variable {W₀ : World S K E σ κ}

/-- **The account.**  What is counted as busy is what was, what will be, and what is counted too
much. -/
theorem Simulation.Trace.usage (hfresh : W₀.Fresh)
    (htrace : Simulation.Trace P conf types interval (.setup W₀ interval) X tr) (s : S) :
    (X.stats s).busyTime =
      occupied s tr + owed (X.world.messages s) X.now + (tr.map (Entry.overcharge s)).sum := by
  induction htrace with
  | nil =>
    have hnone : (Simulation.setup W₀ interval).world.messages s = 0 := (hfresh s).2
    rw [hnone]
    simp [Simulation.setup, occupied, owed]
  | @event X X' tr t tgt a c htrace hev hstep ih =>
    obtain ⟨wtr, hworld⟩ := htrace.world
    obtain ⟨-, hwstep, hnow, -, hserver, hother⟩ := Simulation.process_eq hev hstep
    have hheld := (hworld.accounts hfresh s).1.held
    have hlater := owed_later (X.world.messages s) X.now t
    rw [← World.coresHeld, hheld] at hlater
    have hocc : occupied s (Entry.event X t tgt a c :: tr) =
        (X.world.servers s).cpu.busyCores * (t - X.now) + occupied s tr := by
      rw [occupied, List.map_cons, List.sum_cons]
      rfl
    rw [hocc, hnow, List.map_cons, List.sum_cons]
    by_cases htgt : ∃ ev, tgt = .server s ev
    · obtain ⟨ev, rfl⟩ := htgt
      have hcalls := Simulation.process_calls hev hstep
      rw [(hserver s ev rfl).2, foldl_busyTime]
      linarith
    · have hne : ∀ ev, tgt ≠ .server s ev := fun ev h => htgt ⟨ev, h⟩
      have hzero : (Entry.event X t tgt a c).overcharge s = 0 := by
        rcases tgt with ⟨s', ev⟩ | ⟨k, e⟩
        · refine if_neg ?_
          rintro rfl
          exact hne ev rfl
        · rfl
      have hmessages : X'.world.messages s = X.world.messages s := by
        obtain ⟨-, -, -, h⟩ := World.step_cpu hev hwstep s
        cases h with
        | other _ _ _ hmessages => exact hmessages
        | own => exact absurd rfl (hne _)
      rw [hother s hne, hmessages, hzero]
      linarith
  | @stats X X' tr s' htrace hstep ih =>
    obtain ⟨wtr, hworld⟩ := htrace.world
    obtain ⟨-, rfl⟩ := Simulation.sample_eq hstep
    have hheld := (hworld.accounts hfresh s).1.held
    have hlater := owed_later (X.world.messages s) X.now (X.due s')
    rw [← World.coresHeld, hheld] at hlater
    have hocc : occupied s (Entry.stats X s' :: tr) =
        (X.world.servers s).cpu.busyCores * (X.due s' - X.now) + occupied s tr := by
      rw [occupied, List.map_cons, List.sum_cons]
      rfl
    have hbusy : (Function.update X.stats s'
        (cpuStatsUpdate (X.stats s') (X.world.servers s').cpu.queue.length) s).busyTime =
          (X.stats s).busyTime := by
      by_cases hs : s = s'
      · subst hs
        rw [Function.update_self]
        rfl
      · rw [Function.update_of_ne hs]
    have hzero : (Entry.stats X s' : Entry S K E σ κ χ).overcharge s = 0 := rfl
    rw [hocc, List.map_cons, List.sum_cons, hzero, hbusy]
    linarith

theorem Simulation.Trace.overcharge
    (htrace : Simulation.Trace P conf types interval X₀ X tr) (s : S) :
    ∀ r ∈ tr, 0 ≤ r.overcharge s ∧ (r.overcharge s = 0 ↔ r.ChargesOnce s) := by
  induction htrace with
  | nil => exact List.forall_mem_nil _
  | event c htrace hev hstep ih =>
    exact List.forall_mem_cons.mpr ⟨Simulation.process_overcharge hev hstep, ih⟩
  | stats s' htrace hstep ih =>
    exact List.forall_mem_cons.mpr ⟨⟨le_rfl, iff_of_true rfl trivial⟩, ih⟩

/-- The events of one CPU. -/
def Entry.IsFor (s : S) : Entry S K E σ κ χ → Prop
  | .event _ _ (.server s' _) _ _ => s' = s
  | .event _ _ (.client _ _) _ _ => False
  | .stats _ s' => s' = s

instance (s : S) : DecidablePred (Entry.IsFor (K := K) (E := E) (σ := σ) (κ := κ) (χ := χ) s)
  | .event _ _ (.server s' _) _ _ => inferInstanceAs (Decidable (s' = s))
  | .event _ _ (.client _ _) _ _ => .isFalse id
  | .stats _ s' => inferInstanceAs (Decidable (s' = s))

/-- `state->now` of a CPU: the time of its last event. -/
def cpuNow (s : S) (start : ℚ) : List (Entry S K E σ κ χ) → ℚ
  | [] => start
  | r :: tr => if r.IsFor s then r.time else cpuNow s start tr

/-- A CPU is never busier than all its cores, and after its last event it stays as it is. -/
theorem Simulation.Trace.occupied_le (hfresh : W₀.Fresh)
    (htrace : Simulation.Trace P conf types interval (.setup W₀ interval) X tr) (s : S) :
    W₀.now ≤ cpuNow s W₀.now tr ∧ cpuNow s W₀.now tr ≤ X.now ∧
      occupied s tr ≤ (X.world.servers s).cpu.cores * (cpuNow s W₀.now tr - W₀.now) +
        (X.world.servers s).cpu.busyCores * (X.now - cpuNow s W₀.now tr) := by
  -- one entry, whether it is for this CPU or not
  have key : ∀ {X X' : Simulation S K E σ κ} {tr : List (Entry S K E σ κ χ)}
      (r : Entry S K E σ κ χ), r.before = X → X.now ≤ r.time → X'.now = r.time →
      (X.world.servers s).cpu.busyCores ≤ (X.world.servers s).cpu.cores →
      (X'.world.servers s).cpu.cores = (X.world.servers s).cpu.cores →
      (¬r.IsFor s → (X'.world.servers s).cpu = (X.world.servers s).cpu) →
      (W₀.now ≤ cpuNow s W₀.now tr ∧ cpuNow s W₀.now tr ≤ X.now ∧
        occupied s tr ≤ (X.world.servers s).cpu.cores * (cpuNow s W₀.now tr - W₀.now) +
          (X.world.servers s).cpu.busyCores * (X.now - cpuNow s W₀.now tr)) →
      W₀.now ≤ cpuNow s W₀.now (r :: tr) ∧ cpuNow s W₀.now (r :: tr) ≤ X'.now ∧
        occupied s (r :: tr) ≤
          (X'.world.servers s).cpu.cores * (cpuNow s W₀.now (r :: tr) - W₀.now) +
            (X'.world.servers s).cpu.busyCores * (X'.now - cpuNow s W₀.now (r :: tr)) := by
    rintro X X' tr r rfl hnow hnow' hle hcores hkept ⟨h1, h2, h3⟩
    have hle' : ((r.before.world.servers s).cpu.busyCores : ℚ) ≤
        (r.before.world.servers s).cpu.cores := Nat.cast_le.mpr hle
    have hocc : occupied s (r :: tr) =
        (r.before.world.servers s).cpu.busyCores * (r.time - r.before.now) + occupied s tr := by
      rw [occupied, List.map_cons, List.sum_cons]
      rfl
    rw [hocc, hcores, hnow', cpuNow]
    by_cases hfor : r.IsFor s
    · rw [if_pos hfor]
      have hmul := mul_le_mul_of_nonneg_right hle'
        (show 0 ≤ r.time - cpuNow s W₀.now tr by linarith)
      refine ⟨by linarith, le_rfl, ?_⟩
      linarith
    · rw [if_neg hfor, hkept hfor]
      refine ⟨h1, by linarith, ?_⟩
      linarith
  induction htrace with
  | nil => exact ⟨le_rfl, le_rfl, by simp [occupied, cpuNow, Simulation.setup]⟩
  | @event X X' tr t tgt a c htrace hev hstep ih =>
    obtain ⟨wtr, hworld⟩ := htrace.world
    obtain ⟨hnow, hwstep, hnow', -⟩ := Simulation.process_eq hev hstep
    obtain ⟨hacc, hcores⟩ := hworld.accounts hfresh s
    obtain ⟨-, hcores'⟩ := (World.Trace.cons c hworld hev hwstep trivial).accounts hfresh s
    refine key _ rfl hnow hnow' hacc.le (hcores'.trans hcores.symm) (fun hfor => ?_) ih
    obtain ⟨-, -, -, h⟩ := World.step_cpu hev hwstep s
    cases h with
    | other _ _ hcpu => exact hcpu
    | own => exact absurd rfl hfor
  | @stats X X' tr s' htrace hstep ih =>
    obtain ⟨wtr, hworld⟩ := htrace.world
    obtain ⟨hnow, rfl⟩ := Simulation.sample_eq hstep
    exact key (.stats X s') rfl hnow rfl (hworld.accounts hfresh s).1.le rfl (fun _ => rfl) ih

/-- **CPU usage.**  In a run that ends with no busy core, the time counted is the time the cores
were busy exactly if every event charges once; it is never less.  In such a run the usage that is
reported is at most the number of cores. -/
theorem cpu_usage (hfresh : W₀.Fresh) (hnow : 0 ≤ W₀.now)
    (htrace : Simulation.Trace P conf types interval (.setup W₀ interval) X tr) (s : S)
    (hidle : (X.world.servers s).cpu.busyCores = 0) :
    ((X.stats s).busyTime = occupied s tr ↔ ∀ r ∈ tr, r.ChargesOnce s) ∧
      occupied s tr ≤ (X.stats s).busyTime ∧
      ((∀ r ∈ tr, r.ChargesOnce s) →
        (cpuStatsOutput (X.stats s) (cpuNow s W₀.now tr)).1 ≤ (X.world.servers s).cpu.cores) := by
  obtain ⟨wtr, hworld⟩ := htrace.world
  have howed : owed (X.world.messages s) X.now = 0 := by
    refine Multiset.sum_eq_zero fun y hy => ?_
    obtain ⟨x, hx, rfl⟩ := Multiset.mem_map.mp hy
    have hzero : X.world.coresHeld s = 0 := (hworld.accounts hfresh s).1.held.trans hidle
    have hnone := Multiset.countP_eq_zero.mp hzero x hx
    have hcores : x.2.cores = 0 := by
      have := x.2.cores_le
      omega
    rw [hcores, Nat.cast_zero, zero_mul]
  have husage := htrace.usage hfresh s
  rw [howed, add_zero] at husage
  have hall := htrace.overcharge s
  have hnonneg : ∀ y ∈ tr.map (Entry.overcharge s), 0 ≤ y := by
    intro y hy
    obtain ⟨r, hr, rfl⟩ := List.mem_map.mp hy
    exact (hall r hr).1
  have hiff : (X.stats s).busyTime = occupied s tr ↔ ∀ r ∈ tr, r.ChargesOnce s := by
    rw [husage, add_eq_left]
    constructor
    · intro hsum r hr
      exact (hall r hr).2.mp
        (List.all_zero_of_le_zero_le_of_sum_eq_zero hnonneg hsum (List.mem_map_of_mem hr))
    · intro honce
      refine List.sum_eq_zero fun y hy => ?_
      obtain ⟨r, hr, rfl⟩ := List.mem_map.mp hy
      exact (hall r hr).2.mpr (honce r hr)
  refine ⟨hiff, ?_, fun honce => ?_⟩
  · have := List.sum_nonneg hnonneg
    linarith
  · obtain ⟨h1, -, h3⟩ := htrace.occupied_le hfresh s
    rw [hidle, Nat.cast_zero, zero_mul, add_zero] at h3
    have hcores : (0 : ℚ) ≤ (X.world.servers s).cpu.cores := Nat.cast_nonneg _
    have hmul := mul_le_mul_of_nonneg_left
      (show cpuNow s W₀.now tr - W₀.now ≤ cpuNow s W₀.now tr by linarith) hcores
    rw [cpuStatsOutput, hiff.mpr honce]
    exact div_le_of_le_mul₀ (hnow.trans h1) hcores (h3.trans hmul)

/-! ## 5. Runs that are computed -/

/-- The simulation and its history after these events, a choice for each and the server for
`CPU_STATS`. -/
def Simulation.rerun (P : Program S K E σ κ χ) (conf : SimConfig S K E) (types : E → ℕ)
    (interval : ℚ) : List (Choice χ ⊕ S) → Simulation S K E σ κ → List (Entry S K E σ κ χ) →
      Option (Simulation S K E σ κ × List (Entry S K E σ κ χ))
  | [], X, tr => some (X, tr)
  | .inl c :: moves, X, tr => do
    let ev ← X.world.events[c.pick]?
    let (X', a) ← X.process P conf types c
    Simulation.rerun P conf types interval moves X' (.event X ev.1 ev.2 a c :: tr)
  | .inr s :: moves, X, tr => do
    let X' ← X.sample interval s
    Simulation.rerun P conf types interval moves X' (.stats X s :: tr)

theorem Simulation.Trace.rerun {tr' : List (Entry S K E σ κ χ)} {moves : List (Choice χ ⊕ S)}
    (htrace : Simulation.Trace P conf types interval X₀ X tr)
    (hr : Simulation.rerun P conf types interval moves X tr = some (X', tr')) :
    Simulation.Trace P conf types interval X₀ X' tr' := by
  induction moves generalizing X tr with
  | nil =>
    cases hr
    exact htrace
  | cons move moves ih =>
    rcases move with c | s
    · simp only [Simulation.rerun, Option.bind_eq_bind, Option.bind_eq_some_iff, Prod.exists] at hr
      obtain ⟨t, tgt, hev, X₁, a, hstep, hr⟩ := hr
      exact ih (.event c htrace hev hstep) hr
    · simp only [Simulation.rerun, Option.bind_eq_bind, Option.bind_eq_some_iff] at hr
      obtain ⟨X₁, hstep, hr⟩ := hr
      exact ih (.stats s htrace hstep) hr

/-- What is seen of a computed run is seen of a run. -/
theorem Simulation.Trace.of_rerun (P : Program S K E σ κ χ) (conf : SimConfig S K E)
    (types : E → ℕ) (interval : ℚ) (X₀ : Simulation S K E σ κ) (moves : List (Choice χ ⊕ S))
    (seen : Simulation S K E σ κ → List (Entry S K E σ κ χ) → Bool)
    (hr : (Simulation.rerun P conf types interval moves X₀ []).any (fun x => seen x.1 x.2) = true) :
    ∃ X tr, Simulation.Trace P conf types interval X₀ X tr ∧ seen X tr = true := by
  cases hx : Simulation.rerun P conf types interval moves X₀ [] with
  | none => simp [hx] at hr
  | some x =>
    rw [hx] at hr
    exact ⟨x.1, x.2, Simulation.Trace.nil.rerun hx, hr⟩

/-- `cpu_stats_interval`. -/
def cpuStatsInterval : ℚ := 1 / 10

/-- Two jobs ask for the mutex at the same time. -/
def contendedWorld : World Unit Unit LockingJob Unit Unit :=
  { jobsWorld with events := [(0, .server () (.user .ask)), (0, .server () (.user .ask))] }

/-- One job does. -/
def loneWorld : World Unit Unit LockingJob Unit Unit :=
  { jobsWorld with events := [(0, .server () (.user .ask))] }

theorem loneWorld_fresh : loneWorld.Fresh := jobsWorld_fresh

/-- Which event is picked, when every handler takes a thousandth. -/
def briefMoves (picks : List ℕ) : List (Choice Unit ⊕ Unit) :=
  picks.map fun i => .inl ⟨i, [], 1 / 1000, 0, ()⟩

/-- A single job finds the mutex free, so every event charges once. -/
theorem cpu_usage_brief : ∃ X tr,
    Simulation.Trace jobs jobsConf (fun _ => 13) cpuStatsInterval
      (.setup loneWorld cpuStatsInterval) X tr ∧ (X.stats ()).busyTime = 3 / 1000 ∧
      (∀ r ∈ tr, r.ChargesOnce ()) ∧
      (cpuStatsOutput (X.stats ()) (cpuNow () 0 tr)).1 ≤ (X.world.servers ()).cpu.cores := by
  obtain ⟨X, tr, htrace, hseen⟩ := Simulation.Trace.of_rerun jobs jobsConf (fun _ => 13)
    cpuStatsInterval (.setup loneWorld cpuStatsInterval) (briefMoves [0, 0, 0, 0])
    (fun X tr => decide ((X.world.servers ()).cpu.busyCores = 0 ∧
      (X.stats ()).busyTime = 3 / 1000 ∧ occupied () tr = 3 / 1000)) (by decide +kernel)
  obtain ⟨hidle, hbusy, hocc⟩ := of_decide_eq_true hseen
  obtain ⟨hiff, -, husage⟩ := cpu_usage loneWorld_fresh le_rfl htrace () hidle
  have honce := hiff.mp (hbusy.trans hocc.symm)
  exact ⟨X, tr, htrace, hbusy, honce, husage honce⟩

/-- The second job takes its lock message from the CPU queue: its handler is counted twice. -/
theorem cpu_usage_counted_twice : ∃ X tr,
    Simulation.Trace jobs jobsConf (fun _ => 13) cpuStatsInterval
      (.setup contendedWorld cpuStatsInterval) X tr ∧
      (X.world.servers ()).cpu.busyCores = 0 ∧ (X.stats ()).busyTime = 7 / 1000 ∧
      occupied () tr = 6 / 1000 := by
  obtain ⟨X, tr, htrace, hseen⟩ := Simulation.Trace.of_rerun jobs jobsConf (fun _ => 13)
    cpuStatsInterval (.setup contendedWorld cpuStatsInterval)
    (briefMoves [0, 0, 0, 0, 1, 0, 0, 0, 0])
    (fun X tr => decide ((X.world.servers ()).cpu.busyCores = 0 ∧
      (X.stats ()).busyTime = 7 / 1000 ∧ occupied () tr = 6 / 1000)) (by decide +kernel)
  exact ⟨X, tr, htrace, of_decide_eq_true hseen⟩

/-! ## 6. The maximal length of the queue -/

/-- The length the CPU queue of `s` has in an event of `s`, once an unlock message has moved a
waiter to it. -/
def Target.queueSize (s : S) (cpu : CpuState E) : Target S K E → List ℕ
  | .server s' ev => if s' = s then [(cpu.line ev).length] else []
  | .client _ _ => []

/-- The lengths that the CPU queue of `s` has had since its last `CPU_STATS`, or since the start:
before, in and after every event. -/
def queueSizes (s : S) (X : Simulation S K E σ κ) : List (Entry S K E σ κ χ) → List ℕ
  | [] => [(X.world.servers s).cpu.queue.length]
  | .stats X' s' :: tr => (X.world.servers s).cpu.queue.length ::
      if s' = s then [] else queueSizes s X' tr
  | .event X' _ tgt _ _ :: tr => (X.world.servers s).cpu.queue.length ::
      (tgt.queueSize s (X'.world.servers s).cpu ++ queueSizes s X' tr)

/-- Nothing in a run changes the maximum. -/
theorem Simulation.Trace.maxQueueSize
    (htrace : Simulation.Trace P conf types interval (.setup W₀ interval) X tr) (s : S) :
    (X.stats s).maxQueueSize = 0 := by
  induction htrace with
  | nil => rfl
  | @event X X' tr t tgt a c htrace hev hstep ih =>
    obtain ⟨-, -, -, -, hserver, hother⟩ := Simulation.process_eq hev hstep
    by_cases htgt : ∃ ev, tgt = .server s ev
    · obtain ⟨ev, rfl⟩ := htgt
      rw [(hserver s ev rfl).2, foldl_maxQueueSize]
      exact ih
    · rw [hother s fun ev h => htgt ⟨ev, h⟩]
      exact ih
  | @stats X X' tr s' htrace hstep ih =>
    obtain ⟨-, rfl⟩ := Simulation.sample_eq hstep
    dsimp only
    by_cases hs : s = s'
    · subst hs
      rw [Function.update_self]
      rfl
    · rw [Function.update_of_ne hs]
      exact ih

/-- **The sample of the maximal length.**  When `CPU_STATS` comes, the sample that is pushed is the
maximal length of the queue since the last one exactly if the queue was empty all the time. -/
theorem cpu_max_queue_size
    (htrace : Simulation.Trace P conf types interval (.setup W₀ interval) X tr)
    (hstep : X.sample interval s = some X') :
    ∃ n, (X'.stats s).maxQueueSizeSamples = (X.stats s).maxQueueSizeSamples ++ [n] ∧
      (IsGreatest {m | m ∈ queueSizes s X tr} n ↔ ∀ m ∈ queueSizes s X tr, m = 0) := by
  obtain ⟨-, rfl⟩ := Simulation.sample_eq hstep
  refine ⟨0, ?_, ?_⟩
  · simp only [Function.update_self, cpuStatsUpdate, htrace.maxQueueSize s]
  · have hne : ∃ m, m ∈ queueSizes s X tr := by
      rcases tr with _ | ⟨_ | _, _⟩ <;> exact ⟨_, List.mem_cons_self⟩
    constructor
    · intro h m hm
      exact Nat.le_zero.mp (h.2 hm)
    · intro h
      obtain ⟨m, hm⟩ := hne
      exact ⟨h m hm ▸ hm, fun m hm => (h m hm).le⟩

/-- The queue stays empty while a single job runs, and the sample is right. -/
theorem cpu_max_queue_size_lone : ∃ X tr,
    Simulation.Trace jobs jobsConf (fun _ => 13) cpuStatsInterval
      (.setup loneWorld cpuStatsInterval) X tr ∧ ∃ X' n,
        X.sample cpuStatsInterval () = some X' ∧ (X'.stats ()).maxQueueSizeSamples = [n] ∧
          IsGreatest {m | m ∈ queueSizes () X tr} n := by
  obtain ⟨X, tr, htrace, hseen⟩ := Simulation.Trace.of_rerun jobs jobsConf (fun _ => 13)
    cpuStatsInterval (.setup loneWorld cpuStatsInterval) (briefMoves [0, 0, 0, 0])
    (fun X tr => decide ((X.sample cpuStatsInterval ()).isSome ∧
      (X.stats ()).maxQueueSizeSamples = [] ∧ ∀ m ∈ queueSizes () X tr, m = 0))
    (by decide +kernel)
  obtain ⟨hsome, hnone, hempty⟩ := of_decide_eq_true hseen
  obtain ⟨X', hstep⟩ := Option.isSome_iff_exists.mp hsome
  obtain ⟨n, hpush, hiff⟩ := cpu_max_queue_size htrace hstep
  rw [hnone] at hpush
  exact ⟨X, tr, htrace, X', n, hstep, hpush, hiff.mpr hempty⟩

/-- One core and two jobs that work. -/
def queueingWorld : World Unit Unit LockingJob Unit Unit where
  now := 0
  servers _ := { state := (), cpu := { cores := 1 } }
  clients _ := { state := () }
  events := [(0, .server () (.user .work)), (0, .server () (.user .work))]

/-- The second job waits for the first, so the queue has had length one; the sample is zero. -/
theorem max_queue_size_missed : ∃ X tr,
    Simulation.Trace jobs jobsConf (fun _ => 13) cpuStatsInterval
      (.setup queueingWorld cpuStatsInterval) X tr ∧ 1 ∈ queueSizes () X tr ∧
        (X.sample cpuStatsInterval ()).map (fun X' => (X'.stats ()).maxQueueSizeSamples) =
          some [0] := by
  obtain ⟨X, tr, htrace, hseen⟩ := Simulation.Trace.of_rerun jobs jobsConf (fun _ => 13)
    cpuStatsInterval (.setup queueingWorld cpuStatsInterval) (briefMoves [0, 0, 0, 0])
    (fun X tr => decide (1 ∈ queueSizes () X tr ∧
      (X.sample cpuStatsInterval ()).map (fun X' => (X'.stats ()).maxQueueSizeSamples) =
        some [0])) (by decide +kernel)
  exact ⟨X, tr, htrace, of_decide_eq_true hseen⟩

end CCSim
