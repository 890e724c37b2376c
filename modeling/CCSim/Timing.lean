/-
# When events of the simulator are due

The pool of a world forgets when its entries are due, and so does everything proved from the pool.
Here a run of the simulator is a run of events that keep their times (`World.TimelyRun.timed`).  An
entry of the event list is due at its own time; what waits for a core or for a lock has been due
already.  What a handler hands over is due after its delay, and the event for which it asks for a
lock comes later than the handler started, provided that it took some time: such a choice is
`Timely`.  The choices of a simulator whose timing functions only draw positive times are.
-/
import CCSim.Lib.TimedMail
import CCSim.Replay
import CCSim.Seeded

namespace CCSim

variable {S K E σ κ χ : Type}

/-! ## 1. The events of a world, with their times -/

/-- The events that entries of the event list stand for. -/
def timedEvents (evs : List (ℚ × Target S K E)) : Multiset (ℚ × (S ⊕ K) × E) :=
  (evs.filterMap fun ev => ((ev.2.task ev.1).bind Task.placed?).map (Prod.mk ev.1) : List _)

/-- The event of one entry. -/
def Target.timed (t : ℚ) (tgt : Target S K E) : Multiset (ℚ × (S ⊕ K) × E) :=
  ((((tgt.task t).bind Task.placed?).map (Prod.mk t)).toList : List _)

theorem timedEvents_append (l l' : List (ℚ × Target S K E)) :
    timedEvents (l ++ l') = timedEvents l + timedEvents l' := by
  simp [timedEvents]

theorem timedEvents_cons (t : ℚ) (tgt : Target S K E) (l : List (ℚ × Target S K E)) :
    timedEvents ((t, tgt) :: l) = tgt.timed t + timedEvents l := by
  simp only [timedEvents, Target.timed, List.filterMap_cons]
  cases ((tgt.task t).bind Task.placed?).map (Prod.mk t) <;> simp

theorem timedEvents_eraseIdx {t : ℚ} {tgt : Target S K E} {l : List (ℚ × Target S K E)} {i : ℕ}
    (h : l[i]? = some (t, tgt)) : timedEvents l = tgt.timed t + timedEvents (l.eraseIdx i) :=
  filterMap_eraseIdx
    (fun ev : ℚ × Target S K E => ((ev.2.task ev.1).bind Task.placed?).map (Prod.mk ev.1)) h

/-- Without their times they are those of the tasks. -/
theorem timedEvents_map_snd (evs : List (ℚ × Target S K E)) :
    (timedEvents evs).map Prod.snd = (eventTasks evs).filterMap Task.placed? := by
  induction evs with
  | nil => rfl
  | cons ev evs ih =>
    obtain ⟨t, tgt⟩ := ev
    have htask : eventTasks ((t, tgt) :: evs) =
        ((tgt.task t).toList : Multiset (Task S K E)) + eventTasks evs := by
      simp only [eventTasks, List.filterMap_cons]
      cases tgt.task t <;> simp
    rw [timedEvents_cons, Multiset.map_add, ih, htask, Multiset.filterMap_add,
      Multiset.filterMap_coe]
    congr 1
    unfold Target.timed
    cases tgt.task t with
    | none => rfl
    | some x => cases hx : x.placed? <;> simp [hx]

theorem Target.timed_due {t : ℚ} {tgt : Target S K E} {x : ℚ × (S ⊕ K) × E}
    (hx : x ∈ tgt.timed t) : x.1 = t := by
  obtain ⟨y, -, rfl⟩ := Option.map_eq_some_iff.mp (Option.mem_toList.mp (Multiset.mem_coe.mp hx))
  rfl

/-- What waits at the CPUs for a core or for a lock. -/
def World.waiting [Fintype S] (W : World S K E σ κ) : Multiset (Task S K E) :=
  ∑ s, (W.servers s).cpu.items.map (CpuListItem.task s)

/-- A world with the times of its events: those in the event list are due at their times, all others
have been due. -/
def World.Timed [Fintype S] (W : World S K E σ κ) (T : TimedMail S K E σ κ) : Prop :=
  T.mail = W.config.mail ∧
    ∃ queued, T.events = timedEvents W.events + queued ∧ ∀ x ∈ queued, x.1 ≤ W.now

/-- The events of a world; those that wait are due now. -/
def World.timed [Fintype S] (W : World S K E σ κ) : TimedMail S K E σ κ :=
  ⟨W.now, W.config.server, W.config.client,
    timedEvents W.events + (W.waiting.filterMap Task.placed?).map (Prod.mk W.now)⟩

theorem World.timed_timed [Fintype S] (W : World S K E σ κ) : W.Timed W.timed := by
  refine ⟨?_, _, rfl, fun x hx => ?_⟩
  · have hevents : W.timed.events.map Prod.snd = W.config.pool.filterMap Task.placed? := by
      rw [World.timed, Multiset.map_add, timedEvents_map_snd, Multiset.map_map, World.config,
        Multiset.filterMap_add, World.waiting]
      simp
    rw [TimedMail.mail, Config.mail, hevents]
    rfl
  · obtain ⟨y, -, rfl⟩ := Multiset.mem_map.mp hx
    exact le_rfl

/-- What waits is what is in flight without the event list. -/
theorem World.Timed.waiting_eq [Fintype S] {W : World S K E σ κ} {T : TimedMail S K E σ κ}
    (h : W.Timed T) {queued : Multiset (ℚ × (S ⊕ K) × E)}
    (hq : T.events = timedEvents W.events + queued) :
    queued.map Prod.snd = W.waiting.filterMap Task.placed? := by
  have hevents : T.events.map Prod.snd = W.config.pool.filterMap Task.placed? :=
    congrArg Mail.events h.1
  rw [hq, Multiset.map_add, timedEvents_map_snd, World.config, Multiset.filterMap_add] at hevents
  exact add_left_cancel hevents

/-! ## 2. What a handler leaves behind -/

section Emit

variable [DecidableEq S] [DecidableEq K] {conf : SimConfig S K E} {s : S}

/-- A message arrives no earlier than it is sent. -/
theorem networkSend_le {N : Type} [DecidableEq N] {conf : NetworkConfig N}
    {net net' : NetworkState N} {fromLpid toLpid : N} {now u : ℚ} {size : ℕ}
    (h : networkSend conf net fromLpid toLpid now size = some (net', u)) : now ≤ u := by
  simp only [networkSend, Option.bind_eq_bind, Option.bind_eq_some_iff, Option.guard_eq_some',
    Option.pure_def, Option.some.injEq, Prod.mk.injEq] at h
  obtain ⟨delay, -, _, hdelay, _, hrate, _, -, -, rfl⟩ := h
  have htime : 0 ≤ (size : ℚ) / conf.transmissionRates fromLpid :=
    div_nonneg (Nat.cast_nonneg size) hrate.le
  split <;> linarith

/-- What is handed over becomes one event, due no earlier than its delay says. -/
theorem emitServer_due {net net' : NetworkState (S ⊕ K)} {t u : ℚ} {o : Out S K E}
    {tgt : Target S K E} (h : emitServer conf s net t o = some (net', u, tgt)) :
    o.earliest t ≤ u ∧ tgt.timed u = {(u, o.place s, o.event)} := by
  cases o with
  | toServer s' e =>
    simp only [emitServer, Option.bind_eq_bind, Option.bind_eq_some_iff, Prod.exists,
      Option.pure_def, Option.some.injEq, Prod.mk.injEq] at h
    obtain ⟨_, _, hsend, rfl, rfl, rfl⟩ := h
    exact ⟨networkSend_le hsend, rfl⟩
  | toClient k e =>
    simp only [emitServer, Option.bind_eq_bind, Option.bind_eq_some_iff, Prod.exists,
      Option.pure_def, Option.some.injEq, Prod.mk.injEq] at h
    obtain ⟨_, _, hsend, rfl, rfl, rfl⟩ := h
    exact ⟨networkSend_le hsend, rfl⟩
  | self delay e =>
    simp only [emitServer, Option.some.injEq, Prod.mk.injEq] at h
    obtain ⟨rfl, rfl, rfl⟩ := h
    exact ⟨le_rfl, rfl⟩

omit [DecidableEq S] [DecidableEq K] in
theorem Out.earliest_mono {t t' : ℚ} (h : t ≤ t') (o : Out S K E) : o.earliest t ≤ o.earliest t' := by
  cases o with
  | toServer => exact h
  | toClient => exact h
  | self delay => exact add_le_add_left h delay

theorem emitServerAll_due {now : ℚ} {outs : List (Out S K E)} :
    ∀ {draws : List ℚ} {net net' : NetworkState (S ⊕ K)} {elapsed elapsed' : ℚ}
      {evs : List (ℚ × Target S K E)}, 0 ≤ elapsed →
      emitServerAll conf s now net elapsed outs draws = some (net', elapsed', evs) →
        elapsed' = elapsed + draws.sum ∧ ∀ x ∈ timedEvents evs, ∃ o ∈ outs, ∃ u,
          o.earliest now ≤ u ∧ x = (u, o.place s, o.event) := by
  induction outs with
  | nil =>
    rintro (_ | ⟨d, draws⟩) net net' elapsed elapsed' evs h0 h
    · simp only [emitServerAll, Option.some.injEq, Prod.mk.injEq] at h
      obtain ⟨rfl, rfl, rfl⟩ := h
      exact ⟨(add_zero _).symm, fun x hx => absurd hx (Multiset.notMem_zero x)⟩
    · simp [emitServerAll] at h
  | cons o outs ih =>
    rintro (_ | ⟨d, draws⟩) net net' elapsed elapsed' evs h0 h
    · simp [emitServerAll] at h
    · simp only [emitServerAll, Option.bind_eq_bind, Option.bind_eq_some_iff, Prod.exists,
        Option.guard_eq_some', Option.pure_def, Option.some.injEq, Prod.mk.injEq] at h
      obtain ⟨_, hd, net₁, t, tgt, h₁, net₂, el₂, evs₂, h₂, rfl, rfl, rfl⟩ := h
      obtain ⟨hel, hdue⟩ := ih (by linarith) h₂
      obtain ⟨ht, htimed⟩ := emitServer_due h₁
      refine ⟨by rw [hel, List.sum_cons, add_assoc], fun x hx => ?_⟩
      rw [timedEvents_cons, htimed] at hx
      rcases Multiset.mem_add.mp hx with hx | hx
      · cases Multiset.mem_singleton.mp hx
        exact ⟨o, List.mem_cons_self, t, (o.earliest_mono (by linarith)).trans ht, rfl⟩
      · obtain ⟨o', ho', hu⟩ := hdue x hx
        exact ⟨o', List.mem_cons_of_mem o ho', hu⟩

omit [DecidableEq S] [DecidableEq K] in
/-- How a handler ends, with its time. -/
theorem finish_due {now : ℚ} {cpu : CpuState E} {elapsed after : ℚ} {r : Outcome S K E σ} {t : ℚ}
    {tgt : Target S K E} (h0 : 0 ≤ elapsed)
    (hlock : ∀ m id e, r.cont = .lock m id e → 0 < elapsed)
    (h : finish s now cpu elapsed after r.noTime r.cont = some (t, tgt)) :
    ∀ x ∈ tgt.timed t, r.Due s now x := by
  intro x hx
  cases hc : r.cont with
  | done =>
    simp only [hc, finish, Option.bind_eq_bind, Option.bind_eq_some_iff, Option.pure_def,
      Option.some.injEq, Prod.mk.injEq] at h
    obtain ⟨_, -, rfl, rfl⟩ := h
    exact absurd hx (Multiset.notMem_zero x)
  | lock m id e =>
    simp only [hc, finish, Option.bind_eq_bind, Option.bind_eq_some_iff, Option.pure_def,
      Option.some.injEq, Prod.mk.injEq] at h
    obtain ⟨_, -, rfl, rfl⟩ := h
    cases Multiset.mem_singleton.mp hx
    exact .lock hc (by linarith [hlock m id e hc])
  | unlock m id e =>
    simp only [hc, finish, Option.bind_eq_bind, Option.bind_eq_some_iff, Option.pure_def,
      Option.some.injEq, Prod.mk.injEq] at h
    obtain ⟨_, -, rfl, rfl⟩ := h
    cases e with
    | none => exact absurd hx (Multiset.notMem_zero x)
    | some e =>
      cases Multiset.mem_singleton.mp hx
      exact .unlock hc (by linarith)

end Emit

/-! ## 3. Which event is handled -/

section Dispatch

variable {cpu cpu' : CpuState E} {ev : CpuEvent E} {e : E}

/-- The event that the CPU runs is that of a task which can be taken: the one that came in, or one
that waited. -/
theorem cpuProcessEvent_ready (h : cpuProcessEvent cpu ev = some (cpu', .run e)) (s : S) (t : ℚ) :
    ∃ (x : Task S K E) (tb : LockTable), Ready s t tb x e cpu'.table ∧
      ((Target.server s ev : Target S K E).task t = some x ∨
        ∃ item ∈ cpu.items, x = item.task s) := by
  by_cases hev : ∀ m id e, ev ≠ .unlock m id e
  · obtain ⟨item, hitem, hrun⟩ := (cpuProcessEvent_dispatched h hev).ready (K := K) s t
    refine ⟨_, _, hrun, ?_⟩
    have hmem : item ∈ (ev.item.toList : Multiset (CpuListItem E)) + cpu.items := by
      rw [hitem]
      exact Multiset.mem_cons_self _ _
    rcases Multiset.mem_add.mp hmem with hmem | hmem
    · left
      have htask := task_item (K := K) hev s t
      rw [Option.mem_toList.mp (Multiset.mem_coe.mp hmem)] at htask
      simp only [Option.toList_some, Multiset.coe_singleton, Multiset.map_singleton] at htask
      have hin : (item.task s : Task S K E) ∈ ((Target.server s ev : Target S K E).task t).toList :=
        Multiset.mem_coe.mp (htask ▸ Multiset.mem_singleton_self _)
      exact Option.mem_toList.mp hin
    · exact .inr ⟨item, hmem, rfl⟩
  · simp only [not_forall, not_not] at hev
    obtain ⟨m, id, e', rfl⟩ := hev
    obtain ⟨c₁, hrel, hitems, hcont⟩ := onUnlock_released h
    rcases cpuContinue_dispatched hcont with ⟨rfl, hd⟩ | ⟨e'', rfl, hrun, htable, -⟩
    · obtain ⟨item, hitem, hrun⟩ := hd.ready (K := K) s t
      refine ⟨_, _, hrun, .inr ⟨item, ?_, rfl⟩⟩
      rw [← hitems, hitem]
      exact Multiset.mem_cons_self _ _
    · cases hrun
      exact ⟨_, cpu.table, .release m id e t _ le_rfl (htable ▸ hrel), .inl rfl⟩

theorem cpuProcessEvent_runs (h : cpuProcessEvent cpu ev = some (cpu', .run e)) (s : S) (t : ℚ) :
    ((Target.server s ev : Target S K E).task t).bind Task.placed? = some (.inl s, e) ∨
      ∃ item ∈ cpu.items, (item.task s : Task S K E).placed? = some (.inl s, e) := by
  obtain ⟨x, tb, hready, hx⟩ := cpuProcessEvent_ready (K := K) h s t
  have hplaced := Task.placed?_of_event? hready.event?
  rcases hx with hx | ⟨item, hitem, rfl⟩
  · left
    rw [hx]
    exact hplaced
  · exact .inr ⟨item, hitem, hplaced⟩

end Dispatch

/-! ## 4. Runs -/

variable [DecidableEq S] [DecidableEq K]

/-- A handler that asks for a lock takes some time before it does. -/
def Choice.Timely (c : Choice χ) : Act S K E σ κ → Prop
  | .server _ _ _ _ r => ∀ m id e, r.cont = .lock m id e → 0 < c.draws.sum + c.last
  | .client _ _ _ _ _ => True

/-- A run whose choices are all timely. -/
inductive World.TimelyRun (P : Program S K E σ κ χ) (conf : SimConfig S K E)
    (W₀ : World S K E σ κ) : World S K E σ κ → List (Act S K E σ κ) → Prop
  | nil : World.TimelyRun P conf W₀ W₀ []
  | cons {W W' : World S K E σ κ} {h : List (Act S K E σ κ)} {a : Option (Act S K E σ κ)}
      (c : Choice χ) (hrun : World.TimelyRun P conf W₀ W h)
      (hstep : W.step P conf c = some (W', a)) (hc : ∀ x ∈ a, c.Timely x) :
      World.TimelyRun P conf W₀ W' (a.toList ++ h)

section Steps

variable [Fintype S] {P : Program S K E σ κ χ} {conf : SimConfig S K E} {c : Choice χ}
  {W W' W₀ : World S K E σ κ} {T : TimedMail S K E σ κ} {a : Option (Act S K E σ κ)}

theorem World.TimelyRun.run {h : List (Act S K E σ κ)} (hr : World.TimelyRun P conf W₀ W h) :
    World.Run P conf (fun _ _ => True) W₀ W h := by
  induction hr with
  | nil => exact .nil
  | cons c _ hstep _ ih => exact .cons c ih hstep fun _ _ => trivial

omit [Fintype S] in
/-- What a server's event leaves in the event list. -/
theorem World.stepServer_new {s : S} {ev : CpuEvent E}
    (h : W.stepServer P conf c s ev = some (W', a)) (hc : ∀ x ∈ a, c.Timely x) :
    W'.now = W.now ∧ ∃ new, timedEvents W'.events = timedEvents W.events + new ∧
      (a = none ∧ new = 0 ∨ ∃ cpu e r, a = some (.server s W.now e (W.servers s).state r) ∧
        cpuProcessEvent (W.servers s).cpu ev = some (cpu, .run e) ∧
          new.map Prod.snd = ((r.placed s : List _) : Multiset _) ∧
            ∀ x ∈ new, r.Due s W.now x) := by
  simp only [World.stepServer, Option.bind_eq_bind, Option.bind_eq_some_iff, Prod.exists] at h
  obtain ⟨cpu, d, hcpu, h⟩ := h
  cases d with
  | idle =>
    simp only [Option.pure_def, Option.some.injEq, Prod.mk.injEq] at h
    obtain ⟨rfl, rfl⟩ := h
    exact ⟨rfl, 0, timedEvents_append _ _, .inl ⟨rfl, rfl⟩⟩
  | wait =>
    simp only [Option.pure_def, Option.some.injEq, Prod.mk.injEq] at h
    obtain ⟨rfl, rfl⟩ := h
    exact ⟨rfl, 0, timedEvents_append _ _, .inl ⟨rfl, rfl⟩⟩
  | run e =>
    simp only [Option.bind_eq_some_iff, Prod.exists, Option.pure_def, Option.some.injEq,
      Prod.mk.injEq, Option.guard_eq_some'] at h
    obtain ⟨r, hr, net, elapsed, evs, hem, _, hlast, t, tgt, hfin, rfl, rfl⟩ := h
    obtain ⟨htasks, hle⟩ := emitServerAll_tasks hem
    obtain ⟨hel, hdue⟩ := emitServerAll_due le_rfl hem
    obtain ⟨tasks, ⟨u, -, -, rfl⟩, hevs⟩ := finish_spawns (by linarith) hfin htasks
    have hlock : ∀ m id e, r.cont = .lock m id e → 0 < elapsed + c.last := fun m id e hcont => by
      have hpos : 0 < c.draws.sum + c.last := hc _ rfl m id e hcont
      linarith
    refine ⟨rfl, timedEvents (evs ++ [(t, tgt)]), timedEvents_append _ _, .inr
      ⟨cpu, e, r, rfl, hcpu, ?_, fun x hx => ?_⟩⟩
    · rw [timedEvents_map_snd, hevs, Multiset.filterMap_coe, Outcome.filterMap_tasks]
    · rw [timedEvents_append, timedEvents_cons] at hx
      rcases Multiset.mem_add.mp hx with hx | hx
      · obtain ⟨o, ho, v, hv, rfl⟩ := hdue x hx
        exact .out ho hv
      · exact finish_due (by linarith) hlock hfin x ((Multiset.mem_add.mp hx).resolve_right
          (Multiset.notMem_zero x))

omit [Fintype S] in
/-- What a client's event leaves in the event list. -/
theorem World.stepClient_new {k : K} {e : E} (h : W.stepClient P conf c k e = some (W', a)) :
    W'.now = W.now ∧ ∃ r new, timedEvents W'.events = timedEvents W.events + new ∧
      a = some (.client k W.now e (W.clients k).state r) ∧
        new.map Prod.snd = ((placedOfClient k r.2 : List _) : Multiset _) := by
  simp only [World.stepClient, Option.bind_eq_bind, Option.bind_eq_some_iff, Prod.exists,
    Option.pure_def, Option.some.injEq, Prod.mk.injEq] at h
  obtain ⟨st, outs, hr, net, evs, hem, rfl, rfl⟩ := h
  refine ⟨rfl, _, timedEvents evs, timedEvents_append _ _, rfl, ?_⟩
  rw [timedEvents_map_snd, emitClientAll_tasks hem, Multiset.filterMap_coe,
    filterMap_taskOfClient]

omit [Fintype S] in
theorem Mail.Step.silent {M M' : Mail S K E σ κ} (h : Mail.Step P M none M') :
    M' = { M with now := M'.now } := by
  cases h
  rfl

omit [Fintype S] in
/-- Steps that call no handler change nothing but the time. -/
theorem Silent.mail {A A' : Config S K E σ κ} (h : Silent P A A') :
    A.now ≤ A'.now ∧ A'.mail = { A.mail with now := A'.now } := by
  induction h with
  | refl => exact ⟨le_rfl, rfl⟩
  | tail _ hs ih =>
    refine ⟨ih.1.trans hs.now_le, hs.mail.silent.trans ?_⟩
    rw [ih.2]
    rfl

/-- A step of the simulator, once the time is that of its event, is one of its mail. -/
theorem World.step_mail (h : W.step P conf c = some (W', a)) :
    ∃ t, W.now ≤ t ∧ (a = none ∧ W'.config.mail = { W.config.mail with now := t } ∨
      a.isSome ∧ Mail.Step P { W.config.mail with now := t } a W'.config.mail) := by
  obtain ⟨B, hB, ⟨rfl, hW⟩ | ⟨x, rfl, hx⟩⟩ := World.step_becomes h
  · obtain ⟨hle, hmail⟩ := hB.mail
    exact ⟨_, hle, .inl ⟨rfl, by rw [hW, hmail]⟩⟩
  · obtain ⟨hle, hmail⟩ := hB.mail
    exact ⟨_, hle, .inr ⟨rfl, hmail ▸ hx.mail⟩⟩

omit [DecidableEq S] [DecidableEq K] in
/-- What waits at `s` is among what waits. -/
theorem World.mem_waiting {s : S} {item : CpuListItem E} (h : item ∈ (W.servers s).cpu.items) :
    (item.task s : Task S K E) ∈ W.waiting :=
  Multiset.mem_sum.mpr ⟨s, Finset.mem_univ s, Multiset.mem_map_of_mem _ h⟩

/-- **The step lemma.**  The times that the world keeps for the events in its list are enough to
follow its step: what the event list has lost is due, and so is what was handled. -/
theorem World.step_timed (hW : W.Timed T) (h : W.step P conf c = some (W', a))
    (hc : ∀ x ∈ a, c.Timely x) : ∃ T', TimedMail.Step P T a T' ∧ W'.Timed T' := by
  obtain ⟨u, hu, hmail⟩ := World.step_mail h
  obtain ⟨queued, hq, hdue⟩ := hW.2
  have hwaiting := hW.waiting_eq hq
  simp only [World.step, Option.bind_eq_bind, Option.bind_eq_some_iff, Prod.exists,
    Option.guard_eq_some'] at h
  obtain ⟨t, tgt, hev, _, ⟨hnow, -⟩, h⟩ := h
  have hnowT : T.now = W.now := congrArg Mail.now hW.1
  obtain ⟨tgtEvents, htgt⟩ : ∃ new, new = tgt.timed t := ⟨_, rfl⟩
  -- the event of the step joins those that have been due
  have hevents : T.events = timedEvents (W.events.eraseIdx c.pick) + (tgtEvents + queued) := by
    rw [hq, timedEvents_eraseIdx hev, ← htgt]
    abel
  have hdue' : ∀ x ∈ tgtEvents + queued, x.1 ≤ t := fun x hx => by
    rcases Multiset.mem_add.mp hx with hx | hx
    · exact (Target.timed_due (htgt ▸ hx)).le
    · exact (hdue x hx).trans hnow
  have htake : ∀ {d y rest}, tgtEvents + queued = (d, y) ::ₘ rest → T.events = (d, y) ::ₘ
      (timedEvents (W.events.eraseIdx c.pick) + rest) ∧ d ≤ t ∧ ∀ x ∈ rest, x.1 ≤ t := by
    intro d y rest hrest
    refine ⟨by rw [hevents, hrest, Multiset.add_cons], hdue' (d, y) ?_, fun x hx => hdue' x ?_⟩
    · exact hrest ▸ Multiset.mem_cons_self _ _
    · exact hrest ▸ Multiset.mem_cons_of_mem hx
  cases tgt with
  | server s ev =>
    obtain ⟨hnow', new, hnew, ⟨rfl, rfl⟩ | ⟨cpu, e, r, rfl, hcpu, hsnd, hdues⟩⟩ :=
      World.stepServer_new h hc
    · obtain ⟨-, hmail⟩ | ⟨hsome, -⟩ := hmail
      · refine ⟨{ T with now := u }, .wait (hnowT ▸ hu), ?_, tgtEvents + queued, ?_, ?_⟩
        · rw [hmail, ← hW.1]
          rfl
        · rw [hnew, add_zero]
          exact hevents
        · rw [hnow']
          exact hdue'
      · cases hsome
    · obtain ⟨⟨⟩, -⟩ | ⟨-, hmail⟩ := hmail
      have hin : ∃ d, (d, .inl s, e) ∈ tgtEvents + queued := by
        rcases cpuProcessEvent_runs (K := K) hcpu s t with hrun | ⟨item, hitem, hrun⟩
        · refine ⟨t, Multiset.mem_add.mpr (.inl ?_)⟩
          rw [htgt, Target.timed, hrun]
          exact Multiset.mem_singleton_self _
        · have hmem : (.inl s, e) ∈ queued.map Prod.snd := by
            rw [hwaiting]
            exact (Multiset.mem_filterMap Task.placed? _).mpr ⟨_, World.mem_waiting hitem, hrun⟩
          obtain ⟨⟨d, y⟩, hy, rfl⟩ := Multiset.mem_map.mp hmem
          exact ⟨d, Multiset.mem_add.mpr (.inr hy)⟩
      obtain ⟨d, hd⟩ := hin
      obtain ⟨rest, hrest⟩ := Multiset.exists_cons_of_mem hd
      obtain ⟨hev', hle, hlate⟩ := htake hrest
      rw [← hW.1] at hmail
      obtain ⟨T', hstep, hmail', hT'⟩ := TimedMail.Step.of_serve hmail (hnowT ▸ hu) hev' hle hsnd hdues
      refine ⟨T', hstep, hmail', rest, ?_, fun x hx => hnow' ▸ hlate x hx⟩
      rw [hT', hnew]
      abel
  | client k e =>
    obtain ⟨hnow', r, new, hnew, rfl, hsnd⟩ := World.stepClient_new h
    obtain ⟨⟨⟩, -⟩ | ⟨-, hmail⟩ := hmail
    have hd : (t, .inr k, e) ∈ tgtEvents + queued := by
      refine Multiset.mem_add.mpr (.inl ?_)
      rw [htgt]
      exact Multiset.mem_singleton_self _
    obtain ⟨rest, hrest⟩ := Multiset.exists_cons_of_mem hd
    obtain ⟨hev', hle, hlate⟩ := htake hrest
    rw [← hW.1] at hmail
    obtain ⟨T', hstep, hmail', hT'⟩ := TimedMail.Step.of_client hmail (hnowT ▸ hu) hev' hle hsnd
    refine ⟨T', hstep, hmail', rest, ?_, fun x hx => hnow' ▸ hlate x hx⟩
    rw [hT', hnew]
    abel

/-- **A timely run of the simulator is a run of its events with their times.** -/
theorem World.TimelyRun.timed {h : List (Act S K E σ κ)} (hr : World.TimelyRun P conf W₀ W h) :
    ∃ T, TimedMail.Run P W₀.timed T h ∧ W.Timed T := by
  induction hr with
  | nil => exact ⟨_, .nil, W₀.timed_timed⟩
  | cons c _ hstep hc ih =>
    obtain ⟨T, hT, hW⟩ := ih
    obtain ⟨T', hstep', hW'⟩ := World.step_timed hW hstep hc
    exact ⟨T', .cons hT hstep', hW'⟩

end Steps

/-! ## 5. Replays and simulators -/

/-- A replay whose choices are all timely for every handler call. -/
theorem World.TimelyRun.replay {P : Program S K E σ κ χ} {conf : SimConfig S K E}
    {W₀ W W' : World S K E σ κ} {h h' : List (Act S K E σ κ)} {test : CallTest S K E σ κ}
    (hrun : World.TimelyRun P conf W₀ W h) {cs : List (Choice χ)}
    (hc : ∀ c ∈ cs, 0 < c.draws.sum + c.last)
    (hr : World.replay P conf test cs W h = some (W', h')) :
    World.TimelyRun P conf W₀ W' h' := by
  induction cs generalizing W h with
  | nil =>
    cases hr
    exact hrun
  | cons c cs ih =>
    have hrest : ∀ c' ∈ cs, 0 < c'.draws.sum + c'.last := fun c' h => hc c' (List.mem_cons_of_mem c h)
    have htimely : ∀ x : Act S K E σ κ, c.Timely x := by
      rintro (_ | _)
      · exact fun _ _ _ _ => hc c List.mem_cons_self
      · trivial
    unfold World.replay at hr
    split at hr
    · cases hr
    · rename_i hstep
      exact ih (.cons c hrun hstep (by rintro _ ⟨⟩)) hrest hr
    · rename_i a hstep
      split at hr
      · exact ih (.cons c hrun hstep fun x _ => htimely x) hrest hr
      · cases hr

/-- What is seen at the end of such a replay is seen at the end of a timely run. -/
theorem World.TimelyRun.of_replay (P : Program S K E σ κ χ) (conf : SimConfig S K E)
    (W₀ : World S K E σ κ) (cs : List (Choice χ)) (hc : ∀ c ∈ cs, 0 < c.draws.sum + c.last)
    (seen : World S K E σ κ × List (Act S K E σ κ) → Bool)
    (hr : (World.replay P conf (fun _ _ _ => true) cs W₀ []).any seen = true) :
    ∃ W h, World.TimelyRun P conf W₀ W h ∧ seen (W, h) = true := by
  cases hx : World.replay P conf (fun _ _ _ => true) cs W₀ [] with
  | none => simp [hx] at hr
  | some x =>
    rw [hx] at hr
    exact ⟨x.1, x.2, World.TimelyRun.nil.replay hc hx, hr⟩

section Simulators

variable {U : Type} {M : Simulator S K E σ κ χ U} {X : Sim S K E σ κ}

/-- Every time that is drawn is positive. -/
def Randomness.Positive (R : Randomness S U) : Prop := ∀ s t pos, 0 < (R.draw s t pos).1

omit [DecidableEq S] [DecidableEq K] in
theorem Randomness.Positive.sendTime_nonneg {R : Randomness S U} (h : R.Positive)
    (simulatedSize : E → ℕ) (s : S) (o : Out S K E) (pos : ℕ) :
    0 ≤ (R.sendTime simulatedSize s o pos).1 := by
  have hdraws : 0 ≤ (R.draw s .serverSendTime pos).1 + simulatedSize o.event *
      (R.draw s .serverSendPerByteTime (R.draw s .serverSendTime pos).2).1 :=
    add_nonneg (h _ _ _).le (mul_nonneg (Nat.cast_nonneg _) (h _ _ _).le)
  cases o with
  | self => exact le_rfl
  | toServer => exact hdraws
  | toClient => exact hdraws

omit [DecidableEq S] [DecidableEq K] in
/-- Then all times that a handler uses are positive up to the lock that it asks for. -/
theorem Randomness.Positive.spend_lock {R : Randomness S U} (h : R.Positive)
    (simulatedSize : E → ℕ) (s : S) (calls : List (CpuCall S K E)) :
    ∀ (pos : ℕ) (time saved : ℚ), 0 ≤ time → 0 ≤ saved →
      0 ≤ (R.spend simulatedSize s calls pos time saved).draws.sum ∧
        ∀ m id e, callCont calls = .lock m id e →
          0 < (R.spend simulatedSize s calls pos time saved).last := by
  induction calls with
  | nil => exact fun _ _ _ _ _ => ⟨le_rfl, by rintro _ _ _ ⟨⟩⟩
  | cons call calls ih =>
    intro pos time saved htime hsaved
    cases call with
    | addTime factor t =>
      exact ih _ _ _ (add_nonneg htime (mul_nonneg (Nat.cast_nonneg _) (h _ _ _).le)) hsaved
    | saveTime => exact ih _ _ _ htime htime
    | restoreTime => exact ih _ _ _ hsaved hsaved
    | output o =>
      obtain ⟨hsum, hlast⟩ := ih (R.sendTime simulatedSize s o pos).2 0 saved le_rfl hsaved
      refine ⟨?_, hlast⟩
      rw [Randomness.spend, List.sum_cons]
      exact add_nonneg (add_nonneg htime (h.sendTime_nonneg _ _ _ _)) hsum
    | lock m id e =>
      obtain ⟨hsum, -⟩ := ih (R.draw s .lockTime pos).2 0 saved le_rfl hsaved
      exact ⟨hsum, fun _ _ _ _ => add_pos_of_nonneg_of_pos htime (h _ _ _)⟩
    | unlock m id e =>
      obtain ⟨hsum, -⟩ := ih (R.draw s .lockTime pos).2 0 saved le_rfl hsaved
      exact ⟨hsum, by rintro _ _ _ ⟨⟩⟩
    | allowNoTime => exact ih _ _ _ htime hsaved
    | storePut key => exact ih _ _ _ htime hsaved

/-- The calls that a simulator lists are those of its handlers. -/
def Simulator.Lists (M : Simulator S K E σ κ χ U) : Prop :=
  ∀ s keys t st e r, M.program.serve s t st e = some r →
    CpuCall.Describes (M.calls s keys t st e) r

/-- **If the timing functions draw positive times, a simulator makes timely choices.** -/
theorem Simulator.plan_timely (hM : M.Lists) (hpos : M.random.Positive) {W : World S K E σ κ}
    {a : Option (Act S K E σ κ)}
    (h : X.world.step M.program M.conf (M.plan X).choice = some (W, a)) :
    ∀ x ∈ a, (M.plan X).choice.Timely x := by
  simp only [World.step, Option.bind_eq_bind, Option.bind_eq_some_iff, Prod.exists,
    Option.guard_eq_some'] at h
  obtain ⟨t, tgt, hev, _, -, h⟩ := h
  rw [M.plan_pick X] at hev
  cases tgt with
  | server s ev =>
    obtain ⟨cpu, d, hcpu, hserved⟩ := World.stepServer_served h
    cases hserved with
    | stay => rintro _ ⟨⟩
    | @run e r net evs new hr hnew hevs =>
      rintro x ⟨⟩ m id e' hcont
      have hnext : M.next X = some (s, t, e) := by
        unfold Simulator.next
        rw [hev]
        dsimp only
        rw [show cpuProcessEvent (X.world.servers s).cpu ev = some (cpu, .run e) from hcpu]
      have hplan : (M.plan X).choice.draws.sum + (M.plan X).choice.last =
          (M.random.spend M.conf.simulatedSize s
            (M.calls s (X.keys s) t (X.world.servers s).state e) (M.drawn X s) 0 0).draws.sum +
          (M.random.spend M.conf.simulatedSize s
            (M.calls s (X.keys s) t (X.world.servers s).state e) (M.drawn X s) 0 0).last := by
        unfold Simulator.plan
        rw [hnext]
      obtain ⟨hsum, hlast⟩ := hpos.spend_lock M.conf.simulatedSize s
        (M.calls s (X.keys s) t (X.world.servers s).state e) (M.drawn X s) 0 0 le_rfl le_rfl
      have hcalls := (hM s (X.keys s) t _ e r hr).cont
      rw [hplan]
      exact add_pos_of_nonneg_of_pos hsum (hlast m id e' (hcalls.trans hcont))
  | client k e =>
    obtain ⟨-, r, new, -, rfl, -⟩ := World.stepClient_new h
    rintro x ⟨⟩
    trivial

theorem Simulator.run_timely (hM : M.Lists) (hpos : M.random.Positive) {W₀ : World S K E σ κ}
    {n : ℕ} (h : M.run (.start W₀) n = some X) :
    ∃ acts, World.TimelyRun M.program M.conf W₀ X.world acts := by
  induction n generalizing X with
  | zero =>
    cases h
    exact ⟨[], .nil⟩
  | succ n ih =>
    obtain ⟨Y, hY, hX⟩ := Option.bind_eq_some_iff.mp h
    obtain ⟨acts, hrun⟩ := ih hY
    obtain ⟨-, a, -, hstep, -⟩ := Simulator.step_world hX
    exact ⟨_, hrun.cons _ hstep (M.plan_timely hM hpos hstep)⟩

end Simulators

end CCSim
