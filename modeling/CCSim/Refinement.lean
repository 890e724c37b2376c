/-
# The simulator refines its task pool

`World.step` says exactly when a handler runs: which event is due, which core is free, who holds
a lock and who is next.  `Config` forgets all of that and keeps the work that is waiting.  This
file proves that nothing is lost: every step of the simulator is a few steps of the pool, of
which at most one calls a handler, and the same one (`World.step_refines`).  So a run of the
simulator is a run of the pool with the same handler calls (`World.Run.config`), and an invariant
of the pool holds in every state the simulator reaches, for any number of cores and any choice of
times.
-/
import CCSim.Kernel
import Mathlib.Algebra.BigOperators.Group.Finset.Piecewise

namespace CCSim

variable {S K E σ κ χ : Type} [DecidableEq S] [DecidableEq K] [Fintype S]

/-! ## 1. The pool of a world -/

omit [DecidableEq S] [DecidableEq K] [Fintype S] in
@[simp] theorem eventTasks_append (l l' : List (ℚ × Target S K E)) :
    eventTasks (l ++ l') = eventTasks l + eventTasks l' := by
  simp [eventTasks]

/-- Taking an element out of a list takes its image out of the images. -/
theorem filterMap_eraseIdx {α β : Type} (f : α → Option β) {x : α} :
    ∀ {l : List α} {i : ℕ}, l[i]? = some x → (l.filterMap f : Multiset β) =
      ((f x).toList : Multiset β) + ((l.eraseIdx i).filterMap f : List β)
  | [], _, h => by simp at h
  | y :: l, 0, h => by
    simp only [List.getElem?_cons_zero, Option.some.injEq] at h
    subst h
    simp only [List.eraseIdx_cons_zero, List.filterMap_cons]
    cases f y <;> simp
  | y :: l, i + 1, h => by
    simp only [List.getElem?_cons_succ] at h
    have ih := filterMap_eraseIdx f h
    simp only [List.eraseIdx_cons_succ, List.filterMap_cons]
    cases f y with
    | none => exact ih
    | some z => simp only [← Multiset.cons_coe, ih, Multiset.add_cons]

omit [DecidableEq S] [DecidableEq K] [Fintype S] in
/-- Taking an event out of the event list takes its task out of the pool. -/
theorem eventTasks_eraseIdx {t : ℚ} {tgt : Target S K E} {l : List (ℚ × Target S K E)} {i : ℕ}
    (h : l[i]? = some (t, tgt)) :
    eventTasks l = ((tgt.task t).toList : Multiset (Task S K E)) + eventTasks (l.eraseIdx i) :=
  filterMap_eraseIdx (fun ev : ℚ × Target S K E => ev.2.task ev.1) h

omit [DecidableEq K] in
/-- The pool of a world is what waits at one server's CPU, and a rest that does not change when
that server's process does. -/
theorem World.pool_split (W : World S K E σ κ) (s : S) :
    ∃ R, W.config.pool = (W.servers s).cpu.items.map (CpuListItem.task s) + R ∧
      ∀ lp evs, (W.setServer s lp evs).config.pool =
        lp.cpu.items.map (CpuListItem.task s) + R + eventTasks evs := by
  refine ⟨eventTasks W.events + ∑ s' ∈ Finset.univ \ {s},
    (W.servers s').cpu.items.map (CpuListItem.task s'), ?_, fun lp evs => ?_⟩
  · have := Finset.sum_update_of_mem (Finset.mem_univ s)
      (fun s' => (W.servers s').cpu.items.map (CpuListItem.task (K := K) s'))
      ((W.servers s).cpu.items.map (CpuListItem.task s))
    rw [Function.update_eq_self] at this
    simp only [World.config, this]
    exact add_left_comm _ _ _
  · have := Finset.sum_update_of_mem (Finset.mem_univ s)
      (fun s' => (W.servers s').cpu.items.map (CpuListItem.task (K := K) s'))
      (lp.cpu.items.map (CpuListItem.task s))
    have hfun : (fun s' => ((W.setServer s lp evs).servers s').cpu.items.map
        (CpuListItem.task (K := K) s')) = Function.update
        (fun s' => (W.servers s').cpu.items.map (CpuListItem.task s')) s
        (lp.cpu.items.map (CpuListItem.task s)) := by
      funext s'
      by_cases hs : s' = s
      · subst hs; simp [World.setServer]
      · simp [World.setServer, hs]
    simp only [World.config] at hfun ⊢
    rw [hfun, this]
    simp only [World.setServer, eventTasks_append]
    abel

omit [Fintype S] in
/-- A handler's outputs end up in the event list, and the CPU time only grows. -/
theorem emitServerAll_tasks {conf : SimConfig S K E} {s : S} {now : ℚ} :
    ∀ {outs : List (Out S K E)} {draws : List ℚ} {net net' : NetworkState (S ⊕ K)}
      {elapsed elapsed' : ℚ} {evs : List (ℚ × Target S K E)},
      emitServerAll conf s now net elapsed outs draws = some (net', elapsed', evs) →
        eventTasks evs = (outs.map (Out.taskOf s) : List (Task S K E)) ∧ elapsed ≤ elapsed'
  | [], [], _, _, _, _, _, h => by
    simp only [emitServerAll, Option.some.injEq, Prod.mk.injEq] at h
    obtain ⟨rfl, rfl, rfl⟩ := h
    exact ⟨rfl, le_rfl⟩
  | o :: outs, d :: draws, _, _, elapsed, _, _, h => by
    simp only [emitServerAll, Option.bind_eq_bind, Option.bind_eq_some_iff, Prod.exists,
      Option.guard_eq_some', Option.pure_def, Option.some.injEq, Prod.mk.injEq] at h
    obtain ⟨_, hd, net₁, t, tgt, h₁, net₂, el₂, evs₂, h₂, rfl, rfl, rfl⟩ := h
    obtain ⟨ih, hle⟩ := emitServerAll_tasks h₂
    have ho : tgt.task t = some (o.taskOf s) := by
      cases o <;> simp only [emitServer, Option.bind_eq_bind, Option.bind_eq_some_iff,
        Prod.exists, Option.pure_def, Option.some.injEq, Prod.mk.injEq] at h₁
      · obtain ⟨_, _, _, rfl, rfl, rfl⟩ := h₁; rfl
      · obtain ⟨_, _, _, rfl, rfl, rfl⟩ := h₁; rfl
      · obtain ⟨rfl, rfl, rfl⟩ := h₁; rfl
    refine ⟨?_, by linarith⟩
    simp only [eventTasks, List.filterMap_cons, ho, List.map_cons] at ih ⊢
    rw [← Multiset.cons_coe, ih, Multiset.cons_coe]
  | [], _ :: _, _, _, _, _, _, h => by simp [emitServerAll] at h
  | _ :: _, [], _, _, _, _, _, h => by simp [emitServerAll] at h

omit [Fintype S] in
theorem emitClientAll_tasks {conf : SimConfig S K E} {k : K} {now : ℚ} :
    ∀ {outs : List (Out S K E)} {net net' : NetworkState (S ⊕ K)}
      {evs : List (ℚ × Target S K E)},
      emitClientAll conf k now net outs = some (net', evs) →
        eventTasks evs = (outs.map (Out.taskOfClient k) : List (Task S K E))
  | [], _, _, _, h => by
    simp only [emitClientAll, Option.some.injEq, Prod.mk.injEq] at h
    obtain ⟨rfl, rfl⟩ := h
    rfl
  | o :: outs, _, _, _, h => by
    simp only [emitClientAll, Option.bind_eq_bind, Option.bind_eq_some_iff, Prod.exists,
      Option.pure_def, Option.some.injEq, Prod.mk.injEq] at h
    obtain ⟨net₁, t, tgt, h₁, net₂, evs₂, h₂, rfl, rfl⟩ := h
    have ih := emitClientAll_tasks h₂
    have ho : tgt.task t = some (o.taskOfClient k) := by
      cases o <;> simp only [emitClient, Option.bind_eq_bind, Option.bind_eq_some_iff,
        Prod.exists, Option.pure_def, Option.some.injEq, Prod.mk.injEq] at h₁
      · obtain ⟨_, _, _, rfl, rfl, rfl⟩ := h₁; rfl
      · obtain ⟨_, _, _, rfl, rfl, rfl⟩ := h₁; rfl
      · obtain ⟨rfl, rfl, rfl⟩ := h₁; rfl
    simp only [eventTasks, List.filterMap_cons, ho, List.map_cons] at ih ⊢
    rw [← Multiset.cons_coe, ih, Multiset.cons_coe]

omit [Fintype S] [DecidableEq S] [DecidableEq K] in
/-- How a handler ends is one more event, due late enough. -/
theorem finish_spawns {s : S} {now : ℚ} {cpu : CpuState E} {elapsed after : ℚ}
    {r : Outcome S K E σ} {t : ℚ} {tgt : Target S K E} {evs : List (ℚ × Target S K E)}
    (h0 : 0 ≤ elapsed) (h : finish s now cpu elapsed after r.noTime r.cont = some (t, tgt))
    (hevs : eventTasks evs = (r.outs.map (Out.taskOf s) : List (Task S K E))) :
    ∃ new, Spawns s now r new ∧ eventTasks (evs ++ [(t, tgt)]) = (new : Multiset (Task S K E)) := by
  have key : ∀ u, eventTasks [(t, tgt)] = (r.cont.tasks s u : List (Task S K E)) →
      eventTasks (evs ++ [(t, tgt)]) = (r.tasks s u : List (Task S K E)) := fun u hu => by
    rw [eventTasks_append, hevs, hu, Outcome.tasks, Multiset.coe_add]
  cases hc : r.cont with
  | done =>
    simp only [hc, finish, Option.bind_eq_bind, Option.bind_eq_some_iff, Option.pure_def,
      Option.some.injEq, Prod.mk.injEq] at h
    obtain ⟨_, -, rfl, rfl⟩ := h
    exact ⟨_, ⟨now + 1, by linarith, fun _ => by linarith, rfl⟩, key _ (by rw [hc]; rfl)⟩
  | lock m id e =>
    simp only [hc, finish, Option.bind_eq_bind, Option.bind_eq_some_iff, Option.pure_def,
      Option.some.injEq, Prod.mk.injEq] at h
    obtain ⟨_, -, rfl, rfl⟩ := h
    exact ⟨_, ⟨now + 1, by linarith, fun _ => by linarith, rfl⟩, key _ (by rw [hc]; rfl)⟩
  | unlock m id e =>
    simp only [hc, finish, Option.bind_eq_bind, Option.bind_eq_some_iff, Option.pure_def,
      Option.some.injEq, Prod.mk.injEq, Option.guard_eq_some'] at h
    obtain ⟨_, ⟨-, hpos⟩, rfl, rfl⟩ := h
    refine ⟨_, ⟨now + elapsed, by linarith, fun hno => ?_, rfl⟩, key _ (by rw [hc]; rfl)⟩
    rw [hno] at hpos
    simpa using hpos

/-! ## 2. One event of a server -/

variable {P : Program S K E σ κ χ} {conf : SimConfig S K E}

omit [Fintype S] [DecidableEq S] [DecidableEq K] in
/-- A dispatch that runs a handler took something ready out of what it found. -/
theorem Dispatched.ready {tb tb' : LockTable} {pool rest : Multiset (CpuListItem E)} {e : E}
    (h : Dispatched tb pool (.run e) tb' rest) (s : S) (t : ℚ) :
    ∃ x, pool = x ::ₘ rest ∧ Ready (K := K) s t tb (x.task s) e tb' := by
  cases h with
  | stay _ h => exact absurd rfl (h e)
  | event _ _ h => exact ⟨_, h, .pending e⟩
  | lock m id _ _ _ h hg => exact ⟨_, h, .request m id e _ hg⟩

omit [Fintype S] [DecidableEq S] [DecidableEq K] in
theorem Dispatched.stay_eq {tb tb' : LockTable} {pool rest : Multiset (CpuListItem E)}
    {d : Dispatch E} (h : Dispatched tb pool d tb' rest) (hd : ∀ e, d ≠ .run e) :
    tb' = tb ∧ rest = pool := by
  cases h with
  | stay => exact ⟨rfl, rfl⟩
  | event e => exact absurd rfl (hd e)
  | lock m id e => exact absurd rfl (hd e)

/-- What an event brings to the CPU of its server, if it is not an unlock message. -/
def CpuEvent.item : CpuEvent E → Option (CpuListItem E)
  | .lock m id e => some (.lock m id e)
  | .user e => some (.event e)
  | _ => none

omit [Fintype S] [DecidableEq S] [DecidableEq K] in
theorem cpuProcessEvent_dispatched {cpu cpu' : CpuState E} {ev : CpuEvent E} {d : Dispatch E}
    (h : cpuProcessEvent cpu ev = some (cpu', d)) (hev : ∀ m id e, ev ≠ .unlock m id e) :
    Dispatched cpu.table ((ev.item.toList : Multiset (CpuListItem E)) + cpu.items) d cpu'.table
      cpu'.items := by
  cases ev with
  | unlock m id e => exact absurd rfl (hev m id e)
  | lock m id e =>
    simp only [CpuEvent.item, Option.toList_some, Multiset.coe_singleton, Multiset.singleton_add]
    exact onLock_dispatched h
  | freeCore =>
    simp only [cpuProcessEvent, Option.bind_eq_bind, Option.bind_eq_some_iff] at h
    obtain ⟨c, hc, h⟩ := h
    have := cpuProcessNextInQueue_dispatched h
    rw [cpuBusyCoresDec_some hc] at this
    simpa [CpuEvent.item] using this
  | event =>
    simp only [cpuProcessEvent] at h
    split at h
    · cases h
    · simpa [CpuEvent.item] using cpuProcessNextInQueue_dispatched h
  | user e =>
    simp only [CpuEvent.item, Option.toList_some, Multiset.coe_singleton, Multiset.singleton_add]
    simp only [cpuProcessEvent] at h
    split at h
    · simp only [Option.some.injEq, Prod.mk.injEq] at h
      obtain ⟨rfl, rfl⟩ := h
      rw [items_push]
      exact .stay _ (by simp)
    · obtain ⟨hcpu, rfl⟩ := cpuRun_some h
      rw [hcpu]
      exact .event e _ rfl

/-- The configuration in which `s` has the locks `tb` and the tasks `extra` are in the pool. -/
def World.configWith (W : World S K E σ κ) (s : S) (tb : LockTable)
    (extra : Multiset (Task S K E)) : Config S K E σ κ :=
  { W.config with locks := Function.update W.config.locks s tb, pool := extra + W.config.pool }

omit [DecidableEq K] in
theorem World.configWith_table (W : World S K E σ κ) (s : S) (extra : Multiset (Task S K E)) :
    W.configWith s (W.servers s).cpu.table extra =
      { W.config with pool := extra + W.config.pool } := by
  have : Function.update W.config.locks s (W.servers s).cpu.table = W.config.locks :=
    Function.update_eq_self s W.config.locks
  rw [World.configWith, this]

omit [DecidableEq K] in
/-- The configuration after a server's process was replaced, field by field. -/
theorem World.setServer_config (W : World S K E σ κ) (s : S) (lp : ServerLp S K E σ)
    (evs : List (ℚ × Target S K E)) :
    (W.setServer s lp evs).config =
      { W.config with
        server := Function.update W.config.server s lp.state
        locks := Function.update W.config.locks s lp.cpu.table
        pool := (W.setServer s lp evs).config.pool } := by
  have hserver : (W.setServer s lp evs).config.server =
      Function.update W.config.server s lp.state := by
    funext s'
    by_cases hs : s' = s
    · subst hs; simp [World.config, World.setServer]
    · simp [World.config, World.setServer, hs]
  have hlocks : (W.setServer s lp evs).config.locks =
      Function.update W.config.locks s lp.cpu.table := by
    funext s'
    by_cases hs : s' = s
    · subst hs; simp [World.config, World.setServer]
    · simp [World.config, World.setServer, hs]
  rw [← hserver, ← hlocks]
  rfl

omit [DecidableEq K] in
/-- A dispatch that runs nothing is invisible. -/
theorem World.configWith_stay {W : World S K E σ κ} {s : S} {tb : LockTable}
    {extra : Multiset (CpuListItem E)} {cpu : CpuState E} {d : Dispatch E}
    {evs : List (ℚ × Target S K E)} (hevs : eventTasks evs = 0)
    (hd : Dispatched tb (extra + (W.servers s).cpu.items) d cpu.table cpu.items)
    (hrun : ∀ e, d ≠ .run e) :
    (W.setServer s { W.servers s with cpu := cpu } evs).config =
      W.configWith s tb (extra.map (CpuListItem.task s)) := by
  obtain ⟨htb, hi⟩ := hd.stay_eq hrun
  obtain ⟨R, hR, hset⟩ := W.pool_split s
  have hp : (W.setServer s { W.servers s with cpu := cpu } evs).config.pool =
      extra.map (CpuListItem.task s) + W.config.pool := by
    rw [hset, hevs, add_zero, hi, Multiset.map_add, add_assoc, ← hR]
  have hserver : Function.update W.config.server s (W.servers s).state = W.config.server :=
    Function.update_eq_self s W.config.server
  rw [World.setServer_config, hp, World.configWith, ← htb]
  simp only [hserver]

/-- Running a handler is one step of the pool. -/
theorem World.configWith_run {W : World S K E σ κ} {s : S} {tb : LockTable}
    {extra : Multiset (Task S K E)} {cpu : CpuState E} {e : E} {r : Outcome S K E σ}
    {net : NetworkState (S ⊕ K)} {evs : List (ℚ × Target S K E)} {new : List (Task S K E)}
    {x : Task S K E} {B : Multiset (Task S K E)} (hx : Ready s W.now tb x e cpu.table)
    (hpool : extra + W.config.pool = x ::ₘ B)
    (hset : (W.setServer s ⟨r.state, cpu, net⟩ evs).config.pool = B + (new : Multiset _))
    (hr : P.serve s W.now (W.servers s).state e = some r) (hnew : Spawns s W.now r new) :
    Step P (W.configWith s tb extra) (some (.server s W.now e (W.servers s).state r))
      (W.setServer s ⟨r.state, cpu, net⟩ evs).config := by
  have hlocks : (W.configWith s tb extra).locks s = tb := by simp [World.configWith]
  have hstep := Step.serve (P := P) (A := W.configWith s tb extra) (t := W.now) hpool le_rfl
    (by rw [hlocks]; exact hx) hr hnew
  rw [World.setServer_config, hset]
  simp only [World.configWith, Function.update_idem] at hstep ⊢
  exact hstep

/-- How a server's event can end, the CPU having decided `d`: no handler ran, or one did and
left its tasks. -/
inductive World.Served (P : Program S K E σ κ χ) (W : World S K E σ κ) (s : S)
    (cpu : CpuState E) : Dispatch E → Option (Act S K E σ κ) → World S K E σ κ → Prop
  | stay {d : Dispatch E} {evs : List (ℚ × Target S K E)} (hd : ∀ e, d ≠ .run e)
      (hevs : eventTasks evs = 0) :
      Served P W s cpu d none (W.setServer s { W.servers s with cpu := cpu } evs)
  | run {e : E} {r : Outcome S K E σ} {net : NetworkState (S ⊕ K)}
      {evs : List (ℚ × Target S K E)} {new : List (Task S K E)}
      (hr : P.serve s W.now (W.servers s).state e = some r) (hnew : Spawns s W.now r new)
      (hevs : eventTasks evs = (new : Multiset (Task S K E))) :
      Served P W s cpu (.run e) (some (.server s W.now e (W.servers s).state r))
        (W.setServer s ⟨r.state, cpu, net⟩ evs)

omit [Fintype S] in
theorem World.stepServer_served {W W' : World S K E σ κ} {c : Choice χ} {s : S} {ev : CpuEvent E}
    {a : Option (Act S K E σ κ)} (h : W.stepServer P conf c s ev = some (W', a)) :
    ∃ cpu d, cpuProcessEvent (W.servers s).cpu ev = some (cpu, d) ∧
      World.Served P W s cpu d a W' := by
  simp only [World.stepServer, Option.bind_eq_bind, Option.bind_eq_some_iff, Prod.exists] at h
  obtain ⟨cpu, d, hcpu, h⟩ := h
  refine ⟨cpu, d, hcpu, ?_⟩
  cases d with
  | idle =>
    simp only [Option.pure_def, Option.some.injEq, Prod.mk.injEq] at h
    obtain ⟨rfl, rfl⟩ := h
    exact .stay (by simp) rfl
  | wait =>
    simp only [Option.pure_def, Option.some.injEq, Prod.mk.injEq] at h
    obtain ⟨rfl, rfl⟩ := h
    exact .stay (by simp) rfl
  | run e =>
    simp only [Option.bind_eq_some_iff, Prod.exists, Option.pure_def, Option.some.injEq,
      Prod.mk.injEq, Option.guard_eq_some'] at h
    obtain ⟨r, hr, net, elapsed, evs, hem, _, hlast, t, tgt, hfin, rfl, rfl⟩ := h
    obtain ⟨htasks, hle⟩ := emitServerAll_tasks hem
    obtain ⟨new, hnew, hevs⟩ := finish_spawns (by linarith) hfin htasks
    exact .run hr hnew hevs

/-! ## 3. A step of the simulator is a few steps of the pool -/

/-- The configurations that can be reached without a handler call. -/
abbrev Silent (P : Program S K E σ κ χ) : Config S K E σ κ → Config S K E σ κ → Prop :=
  Relation.ReflTransGen fun A A' => Step P A none A'

/-- `A` becomes `A'` with the handler calls `a`, after any number of silent steps. -/
def Becomes (P : Program S K E σ κ χ) (A : Config S K E σ κ) (a : Option (Act S K E σ κ))
    (A' : Config S K E σ κ) : Prop :=
  ∃ B, Silent P A B ∧ (a = none ∧ A' = B ∨ ∃ x, a = some x ∧ Step P B (some x) A')

/-- What the CPU found, in a given state of the locks, is enough to follow the step. -/
theorem World.Served.becomes {W W' : World S K E σ κ} {s : S} {tb : LockTable}
    {extra : Multiset (CpuListItem E)} {cpu : CpuState E} {d : Dispatch E}
    {a : Option (Act S K E σ κ)} (h : World.Served P W s cpu d a W')
    (hd : Dispatched tb (extra + (W.servers s).cpu.items) d cpu.table cpu.items) :
    Becomes P (W.configWith s tb (extra.map (CpuListItem.task s))) a W'.config := by
  refine ⟨_, .refl, ?_⟩
  cases h with
  | stay hrun hevs => exact .inl ⟨rfl, World.configWith_stay hevs hd hrun⟩
  | run hr hnew hevs =>
    obtain ⟨x, hx, hready⟩ := hd.ready (K := K) s W.now
    obtain ⟨R, hR, hset⟩ := W.pool_split s
    refine .inr ⟨_, rfl, World.configWith_run (B := cpu.items.map (CpuListItem.task s) + R)
      hready ?_ (by rw [hset, hevs]) hr hnew⟩
    rw [hR, ← add_assoc, ← Multiset.map_add, hx, Multiset.map_cons, Multiset.cons_add]

omit [Fintype S] [DecidableEq S] [DecidableEq K] in
/-- The task of a server's event, as an item for its CPU. -/
theorem task_item {ev : CpuEvent E} (hev : ∀ m id e, ev ≠ .unlock m id e) (s : S) (t : ℚ) :
    (((Target.server s ev : Target S K E).task t).toList : Multiset (Task S K E)) =
      (ev.item.toList : Multiset (CpuListItem E)).map (CpuListItem.task s) := by
  cases ev with
  | unlock m id e => exact absurd rfl (hev m id e)
  | _ => simp [Target.task, CpuEvent.item, CpuListItem.task]

/-- One event of a server, seen in the pool. -/
theorem World.stepServer_becomes {W W' : World S K E σ κ} {c : Choice χ} {s : S} {ev : CpuEvent E}
    {a : Option (Act S K E σ κ)} (h : W.stepServer P conf c s ev = some (W', a)) :
    Becomes P { W.config with
      pool := (((Target.server s ev : Target S K E).task W.now).toList : Multiset (Task S K E)) +
        W.config.pool } a W'.config := by
  obtain ⟨cpu, d, hcpu, hserved⟩ := World.stepServer_served h
  by_cases hev : ∀ m id e, ev ≠ .unlock m id e
  · rw [task_item hev, ← World.configWith_table]
    exact hserved.becomes (cpuProcessEvent_dispatched hcpu hev)
  simp only [not_forall, not_not] at hev
  obtain ⟨m, id, e, rfl⟩ := hev
  obtain ⟨c₁, hrel, hitems, hcont⟩ := onUnlock_released hcpu
  simp only [Target.task, Option.toList_some, Multiset.coe_singleton]
  rcases cpuContinue_dispatched hcont with ⟨rfl, hd⟩ | ⟨e', rfl, rfl, htb, hi⟩
  · -- the lock is given back, and something else may run
    have hdisp : Dispatched c₁.table (0 + (W.servers s).cpu.items) d cpu.table cpu.items := by
      rw [zero_add, ← hitems]; exact hd
    obtain ⟨B, hB, hstep⟩ := hserved.becomes hdisp
    refine ⟨B, .head ?_ hB, hstep⟩
    have := Step.release (P := P) (A := { W.config with
      pool := .release s m id none W.now ::ₘ W.config.pool }) (t := W.now) rfl le_rfl le_rfl hrel
    simp only [World.configWith, Multiset.map_zero, zero_add, Multiset.singleton_add]
    exact this
  · -- the event of the unlock message runs, and the lock is given back in the same instant
    cases hserved with
    | stay hrun => exact absurd rfl (hrun e')
    | run hr hnew hevs =>
      obtain ⟨R, hR, hset⟩ := W.pool_split s
      rw [← World.configWith_table]
      refine ⟨_, .refl, .inr ⟨_, rfl, World.configWith_run (B := W.config.pool)
        (.release m id e' W.now _ le_rfl ?_) (Multiset.singleton_add _ _) ?_ hr hnew⟩⟩
      · rw [hrel, htb]
      · rw [hset, hevs, hi, hitems, hR]

/-- One event of a client, seen in the pool. -/
theorem World.stepClient_becomes {W W' : World S K E σ κ} {c : Choice χ} {k : K} {e : E}
    {a : Option (Act S K E σ κ)} (h : W.stepClient P conf c k e = some (W', a)) :
    Becomes P { W.config with pool := .client k e ::ₘ W.config.pool } a W'.config := by
  simp only [World.stepClient, Option.bind_eq_bind, Option.bind_eq_some_iff, Prod.exists,
    Option.pure_def, Option.some.injEq, Prod.mk.injEq] at h
  obtain ⟨st, outs, hr, net, evs, hem, rfl, rfl⟩ := h
  have htasks := emitClientAll_tasks hem
  have hstep := Step.client (P := P) (A := { W.config with pool := .client k e ::ₘ W.config.pool })
    (t := W.now) rfl le_rfl hr
  refine ⟨_, .refl, .inr ⟨_, rfl, ?_⟩⟩
  have hclient : (W.setClient k ⟨st, net⟩ evs).config.client =
      Function.update W.config.client k st := by
    funext k'
    by_cases hk : k' = k
    · subst hk; simp [World.config, World.setClient]
    · simp [World.config, World.setClient, hk]
  have hpool : (W.setClient k ⟨st, net⟩ evs).config.pool = W.config.pool +
      ((outs.map (Out.taskOfClient k) : List (Task S K E)) : Multiset (Task S K E)) := by
    simp only [World.config, World.setClient, eventTasks_append, htasks]
    abel
  have hconfig : (W.setClient k ⟨st, net⟩ evs).config =
      { W.config with
        client := (W.setClient k ⟨st, net⟩ evs).config.client
        pool := (W.setClient k ⟨st, net⟩ evs).config.pool } := rfl
  rw [hconfig, hclient, hpool]
  exact hstep

/-- **The simulator refines the pool.**  A step calls the handler of at most one event, as the
pool could have done after steps that call none. -/
theorem World.step_becomes {W W' : World S K E σ κ} {c : Choice χ}
    {a : Option (Act S K E σ κ)} (h : W.step P conf c = some (W', a)) :
    Becomes P W.config a W'.config := by
  simp only [World.step, Option.bind_eq_bind, Option.bind_eq_some_iff, Prod.exists,
    Option.guard_eq_some'] at h
  obtain ⟨t, tgt, hev, _, ⟨hnow, -⟩, h⟩ := h
  have hpool := eventTasks_eraseIdx hev
  have key : ∀ A, A = { W.config with now := t } → Becomes P A a W'.config →
      Becomes P W.config a W'.config := by
    rintro A rfl ⟨B, hB, hstep⟩
    exact ⟨B, .head (.wait hnow) hB, hstep⟩
  cases tgt with
  | server s ev =>
    refine key _ ?_ (World.stepServer_becomes h)
    simp only [World.config, hpool, add_assoc]
  | client k e =>
    refine key _ ?_ (World.stepClient_becomes h)
    simp only [World.config, hpool, Target.task, Option.toList_some, Multiset.coe_singleton,
      Multiset.singleton_add, Multiset.cons_add]

omit [Fintype S] in
theorem Silent.view {A A' : Config S K E σ κ} (h : Silent P A A')
    (past : List (Act S K E σ κ)) : A'.view past = A.view past := by
  induction h with
  | refl => rfl
  | tail _ hs ih => exact hs.silent_view.trans ih

/-- **A run of the simulator is a run of the pool**, with the same handler calls under the same
conditions. -/
theorem World.Run.config {C : Cond S K E σ κ} {W₀ W : World S K E σ κ}
    {h : List (Act S K E σ κ)} (hrun : World.Run P conf C W₀ W h) :
    CCSim.Run P C W₀.config W.config h := by
  induction hrun with
  | nil => exact .nil
  | cons c _ hstep hc ih =>
    obtain ⟨B, hB, ⟨rfl, hW⟩ | ⟨x, rfl, hx⟩⟩ := World.step_becomes hstep
    · rw [hW]
      exact ih.silent hB
    · exact .cons (ih.silent hB) hx fun y hy => by rw [Silent.view hB]; exact hc y hy

/-- What every step of the pool does, a step of the simulator does. -/
theorem World.Run.step_rule {C : Cond S K E σ κ} {W₀ W W' : World S K E σ κ}
    {h : List (Act S K E σ κ)} {c : Choice χ} {a : Option (Act S K E σ κ)}
    {Φ : Config S K E σ κ → Config S K E σ κ → Prop} (hrefl : ∀ A, Φ A A)
    (htrans : ∀ {A B D}, Φ A B → Φ B D → Φ A D)
    (hΦ : ∀ {A A' h a}, CCSim.Run P C W₀.config A h → CCSim.Step P A a A' →
      (∀ x ∈ a, C (A.view h) x) → Φ A A')
    (hrun : World.Run P conf C W₀ W h) (hstep : W.step P conf c = some (W', a))
    (hc : ∀ x ∈ a, C (W.config.view h) x) : Φ W.config W'.config := by
  have hsilent : ∀ {B}, Silent P W.config B → CCSim.Run P C W₀.config B h ∧ Φ W.config B := by
    intro B hB
    induction hB with
    | refl => exact ⟨hrun.config, hrefl _⟩
    | tail hB hs ih =>
      exact ⟨.cons ih.1 hs (by rintro _ ⟨⟩), htrans ih.2 (hΦ ih.1 hs (by rintro _ ⟨⟩))⟩
  obtain ⟨B, hB, ⟨rfl, hW⟩ | ⟨x, rfl, hx⟩⟩ := World.step_becomes hstep
  · rw [hW]
    exact (hsilent hB).2
  · refine htrans (hsilent hB).2 (hΦ (hsilent hB).1 hx fun y hy => ?_)
    rw [Silent.view hB]
    exact hc y hy

end CCSim
