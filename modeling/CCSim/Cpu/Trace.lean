/-
# Runs of the simulator, event by event

`World.Run` keeps of a run the handler calls.  What a CPU does shows in events without a handler
as well, so this file records every event: the world it found, its time, whom it was for, and
the handler call, if there was one (`Record`).  A `World.Trace` is a run with its records, under
a condition on each of them.

A server's CPU changes only when an event for that server is processed.  `World.step_cpu` says
what this does to the CPU and to the messages the CPU has sent to itself, its pending
`CPU_FREE_CORE`, `CPU_EVENT`, lock and unlock events.  It is the step lemma of all results about
CPUs.
-/
import CCSim.Refinement
import CCSim.Cpu.Processing

namespace CCSim

variable {S K E σ κ χ : Type} [DecidableEq S] [DecidableEq K]

/-! ## 1. Records and traces -/

/-- One processed event. -/
structure Record (S K E σ κ : Type) where
  before : World S K E σ κ
  time : ℚ
  target : Target S K E
  act : Option (Act S K E σ κ)

/-- `W` is reached from `W₀` by the events `tr`, the latest first, which all met `G`. -/
inductive World.Trace (P : Program S K E σ κ χ) (conf : SimConfig S K E)
    (G : Record S K E σ κ → Prop) (W₀ : World S K E σ κ) :
    World S K E σ κ → List (Record S K E σ κ) → Prop
  | nil : World.Trace P conf G W₀ W₀ []
  | cons {W W' : World S K E σ κ} {tr : List (Record S K E σ κ)} {t : ℚ}
      {tgt : Target S K E} {a : Option (Act S K E σ κ)} (c : Choice χ)
      (htrace : World.Trace P conf G W₀ W tr) (hev : W.events[c.pick]? = some (t, tgt))
      (hstep : W.step P conf c = some (W', a)) (hG : G ⟨W, t, tgt, a⟩) :
      World.Trace P conf G W₀ W' (⟨W, t, tgt, a⟩ :: tr)

variable {P : Program S K E σ κ χ} {conf : SimConfig S K E} {G : Record S K E σ κ → Prop}
  {W₀ W W' : World S K E σ κ} {tr : List (Record S K E σ κ)}

/-- A trace is a run. -/
theorem World.Trace.run [Fintype S] (h : World.Trace P conf G W₀ W tr) :
    World.Run P conf (fun _ _ => True) W₀ W (tr.filterMap Record.act) := by
  induction h with
  | nil => exact .nil
  | @cons W W' tr t tgt a c _ _ hstep _ ih =>
    have := World.Run.cons c ih hstep fun _ _ => trivial
    cases a <;> exact this

/-- A run is a trace. -/
theorem World.Run.trace [Fintype S] {C : Cond S K E σ κ} {h : List (Act S K E σ κ)}
    (hrun : World.Run P conf C W₀ W h) :
    ∃ tr, World.Trace P conf (fun _ => True) W₀ W tr ∧ tr.filterMap Record.act = h := by
  induction hrun with
  | nil => exact ⟨[], .nil, rfl⟩
  | @cons W W' h a c _ hstep _ ih =>
    obtain ⟨tr, htr, rfl⟩ := ih
    have hev : ∃ ev, W.events[c.pick]? = some ev := by
      simp only [World.step, Option.bind_eq_bind, Option.bind_eq_some_iff] at hstep
      obtain ⟨ev, hev, -⟩ := hstep
      exact ⟨ev, hev⟩
    obtain ⟨⟨t, tgt⟩, hev⟩ := hev
    refine ⟨_, .cons c htr hev hstep trivial, ?_⟩
    cases a <;> rfl

/-! ## 2. The messages of a CPU to itself -/

/-- The message in an event, if it is one of the CPU of `s`. -/
def Target.message? (s : S) : Target S K E → Option (CpuEvent E)
  | .server _ (.user _) => none
  | .server s' ev => if s' = s then some ev else none
  | .client _ _ => none

/-- The messages of the CPU of `s` among some events, with their times. -/
def cpuMessages (s : S) (evs : List (ℚ × Target S K E)) : Multiset (ℚ × CpuEvent E) :=
  (evs.filterMap fun ev => (ev.2.message? s).map (Prod.mk ev.1) : List (ℚ × CpuEvent E))

/-- The pending messages of the CPU of `s`. -/
def World.messages (W : World S K E σ κ) (s : S) : Multiset (ℚ × CpuEvent E) :=
  cpuMessages s W.events

/-- An event that is a message of the CPU, as such. -/
def CpuEvent.message (t : ℚ) : CpuEvent E → Multiset (ℚ × CpuEvent E)
  | .user _ => 0
  | ev => {(t, ev)}

/-- The message a handler ends with. -/
def Cont.message : Cont E → CpuEvent E
  | .done => .freeCore
  | .lock m id e => .lock m id e
  | .unlock m id e => .unlock m id e

/-- The messages a dispatch leaves behind at time `t`, `st` being the state of the server, and
the handler call that was made. -/
inductive Leaves (P : Program S K E σ κ χ) (s : S) (t : ℚ) (st : σ) :
    Dispatch E → Option (Act S K E σ κ) → Multiset (ℚ × CpuEvent E) → Prop
  | idle : Leaves P s t st .idle none 0
  | wait : Leaves P s t st .wait none {(t, .event)}
  | run {e : E} {r : Outcome S K E σ} {t' : ℚ} (hr : P.serve s t st e = some r) (ht : t ≤ t') :
      Leaves P s t st (.run e) (some (.server s t e st r)) {(t', r.cont.message)}

omit [DecidableEq K] in
@[simp] theorem cpuMessages_append (s : S) (l l' : List (ℚ × Target S K E)) :
    cpuMessages s (l ++ l') = cpuMessages s l + cpuMessages s l' := by
  simp [cpuMessages]

omit [DecidableEq K] in
theorem cpuMessages_eq_zero {s : S} {evs : List (ℚ × Target S K E)}
    (h : ∀ ev ∈ evs, ev.2.message? s = none) : cpuMessages s evs = 0 := by
  rw [cpuMessages, List.filterMap_eq_nil_iff.mpr fun ev hev => by rw [h ev hev]; rfl]
  rfl

omit [DecidableEq K] in
/-- Taking an event out of the event list takes its message away. -/
theorem cpuMessages_eraseIdx (s : S) {t : ℚ} {tgt : Target S K E} {l : List (ℚ × Target S K E)}
    {i : ℕ} (h : l[i]? = some (t, tgt)) :
    cpuMessages s l = ((tgt.message? s).map (Prod.mk t)).toList + cpuMessages s (l.eraseIdx i) :=
  filterMap_eraseIdx (fun ev : ℚ × Target S K E => (ev.2.message? s).map (Prod.mk ev.1)) h

omit [DecidableEq K] in
theorem message?_self (s : S) (t : ℚ) (ev : CpuEvent E) :
    (((Target.server s ev : Target S K E).message? s).map (Prod.mk t)).toList = ev.message t := by
  cases ev <;> simp [Target.message?, CpuEvent.message]

omit [DecidableEq K] in
theorem message?_of_ne {s s' : S} (hs : s' ≠ s) (ev : CpuEvent E) :
    (Target.server s' ev : Target S K E).message? s = none := by
  cases ev <;> simp [Target.message?, hs]

omit [DecidableEq K] in
theorem message?_eq_some {s : S} {tgt : Target S K E} {ev : CpuEvent E} :
    tgt.message? s = some ev ↔ tgt = .server s ev ∧ ∀ e, ev ≠ .user e := by
  rcases tgt with ⟨s', ev'⟩ | ⟨k, e⟩
  · by_cases hs : s' = s
    · cases ev' <;> simp [Target.message?, hs] <;> rintro rfl <;> simp
    · cases ev' <;> simp [Target.message?, hs]
  · simp [Target.message?]

omit [DecidableEq K] in
theorem World.mem_messages {W : World S K E σ κ} {s : S} {t : ℚ} {ev : CpuEvent E} :
    (t, ev) ∈ W.messages s ↔ (t, .server s ev) ∈ W.events ∧ ∀ e, ev ≠ .user e := by
  rw [World.messages, cpuMessages, Multiset.mem_coe, List.mem_filterMap]
  constructor
  · rintro ⟨⟨t', tgt⟩, hmem, h⟩
    obtain ⟨ev', hev', h⟩ := Option.map_eq_some_iff.mp h
    cases h
    obtain ⟨rfl, hne⟩ := message?_eq_some.mp hev'
    exact ⟨hmem, hne⟩
  · rintro ⟨hmem, hne⟩
    exact ⟨_, hmem, Option.map_eq_some_iff.mpr ⟨ev, message?_eq_some.mpr ⟨rfl, hne⟩, rfl⟩⟩

/-- Nothing a server hands over is a message of a CPU. -/
theorem emitServerAll_message {s s' : S} {now : ℚ} :
    ∀ {outs : List (Out S K E)} {draws : List ℚ} {net net' : NetworkState (S ⊕ K)}
      {elapsed elapsed' : ℚ} {evs : List (ℚ × Target S K E)},
      emitServerAll conf s now net elapsed outs draws = some (net', elapsed', evs) →
        ∀ ev ∈ evs, ev.2.message? s' = none
  | [], [], _, _, _, _, _, h => by
    simp only [emitServerAll, Option.some.injEq, Prod.mk.injEq] at h
    obtain ⟨-, -, rfl⟩ := h
    simp
  | o :: outs, d :: draws, _, _, _, _, _, h => by
    simp only [emitServerAll, Option.bind_eq_bind, Option.bind_eq_some_iff, Prod.exists,
      Option.pure_def, Option.some.injEq, Prod.mk.injEq] at h
    obtain ⟨_, -, net₁, t, tgt, h₁, net₂, el₂, evs₂, h₂, -, -, rfl⟩ := h
    intro ev hev
    rcases List.mem_cons.mp hev with rfl | hev
    · cases o <;> simp only [emitServer, Option.bind_eq_bind, Option.bind_eq_some_iff,
        Prod.exists, Option.pure_def, Option.some.injEq, Prod.mk.injEq] at h₁
      · obtain ⟨_, _, _, -, -, rfl⟩ := h₁; rfl
      · obtain ⟨_, _, _, -, -, rfl⟩ := h₁; rfl
      · obtain ⟨-, -, rfl⟩ := h₁; rfl
    · exact emitServerAll_message h₂ ev hev
  | [], _ :: _, _, _, _, _, _, h => by simp [emitServerAll] at h
  | _ :: _, [], _, _, _, _, _, h => by simp [emitServerAll] at h

theorem emitClientAll_message {k : K} {now : ℚ} {s : S} :
    ∀ {outs : List (Out S K E)} {net net' : NetworkState (S ⊕ K)}
      {evs : List (ℚ × Target S K E)},
      emitClientAll conf k now net outs = some (net', evs) → ∀ ev ∈ evs, ev.2.message? s = none
  | [], _, _, _, h => by
    simp only [emitClientAll, Option.some.injEq, Prod.mk.injEq] at h
    obtain ⟨-, rfl⟩ := h
    simp
  | o :: outs, _, _, _, h => by
    simp only [emitClientAll, Option.bind_eq_bind, Option.bind_eq_some_iff, Prod.exists,
      Option.pure_def, Option.some.injEq, Prod.mk.injEq] at h
    obtain ⟨net₁, t, tgt, h₁, net₂, evs₂, h₂, -, rfl⟩ := h
    intro ev hev
    rcases List.mem_cons.mp hev with rfl | hev
    · cases o <;> simp only [emitClient, Option.bind_eq_bind, Option.bind_eq_some_iff,
        Prod.exists, Option.pure_def, Option.some.injEq, Prod.mk.injEq] at h₁
      · obtain ⟨_, _, _, -, -, rfl⟩ := h₁; rfl
      · obtain ⟨_, _, _, -, -, rfl⟩ := h₁; rfl
      · obtain ⟨-, -, rfl⟩ := h₁; rfl
    · exact emitClientAll_message h₂ ev hev

omit [DecidableEq S] [DecidableEq K] in
/-- A handler's end is its message, at a time not before the elapsed time. -/
theorem finish_message {s : S} {now : ℚ} {cpu : CpuState E} {elapsed after : ℚ} {noTime : Bool}
    {cont : Cont E} {t : ℚ} {tgt : Target S K E}
    (h : finish s now cpu elapsed after noTime cont = some (t, tgt)) :
    t = now + elapsed ∧ tgt = .server s cont.message := by
  cases cont <;>
    simp only [finish, Option.bind_eq_bind, Option.bind_eq_some_iff, Option.pure_def,
      Option.some.injEq, Prod.mk.injEq] at h <;>
    obtain ⟨_, -, rfl, rfl⟩ := h <;> exact ⟨rfl, rfl⟩

/-! ## 3. The step lemma -/

/-- What a step that processes an event at `tgt` does to the CPU of `s` and its messages. -/
inductive World.CpuStep (P : Program S K E σ κ χ) (W : World S K E σ κ) (s : S) (t : ℚ) :
    Target S K E → Option (Act S K E σ κ) → World S K E σ κ → Prop
  | other {tgt : Target S K E} {a : Option (Act S K E σ κ)} {W' : World S K E σ κ}
      (htgt : ∀ ev, tgt ≠ .server s ev) (hact : ∀ t' e st r, a ≠ some (.server s t' e st r))
      (hcpu : (W'.servers s).cpu = (W.servers s).cpu)
      (hmessages : W'.messages s = W.messages s) : World.CpuStep P W s t tgt a W'
  | own {ev : CpuEvent E} {a : Option (Act S K E σ κ)} {W' : World S K E σ κ} {d : Dispatch E}
      {rest new : Multiset (ℚ × CpuEvent E)} (hold : W.messages s = ev.message t + rest)
      (hprocess : cpuProcessEvent (W.servers s).cpu ev = some ((W'.servers s).cpu, d))
      (hleaves : Leaves P s t (W.servers s).state d a new)
      (hnew : W'.messages s = rest + new) : World.CpuStep P W s t (.server s ev) a W'

/-- Only the events of a server reach its CPU. -/
theorem World.stepServer_cpu {c : Choice χ} {s s' : S} {ev : CpuEvent E}
    {a : Option (Act S K E σ κ)} (h : W.stepServer P conf c s' ev = some (W', a)) :
    W'.now = W.now ∧ (s ≠ s' → (∀ t e st r, a ≠ some (.server s t e st r)) ∧
      (W'.servers s).cpu = (W.servers s).cpu ∧ W'.messages s = W.messages s) ∧
    (s = s' → ∃ d new, cpuProcessEvent (W.servers s).cpu ev = some ((W'.servers s).cpu, d) ∧
      Leaves P s W.now (W.servers s).state d a new ∧ W'.messages s = W.messages s + new) := by
  simp only [World.stepServer, Option.bind_eq_bind, Option.bind_eq_some_iff, Prod.exists] at h
  obtain ⟨cpu, d, hcpu, h⟩ := h
  -- a server's process is replaced, and messages to itself are added
  have key : ∀ (lp : ServerLp S K E σ) (evs : List (ℚ × Target S K E)) (new),
      W' = W.setServer s' lp evs → lp.cpu = cpu →
      (s ≠ s' → cpuMessages s evs = 0) → (s = s' → cpuMessages s evs = new) →
      Leaves P s' W.now (W.servers s').state d a new →
      W'.now = W.now ∧ (s ≠ s' → (∀ t e st r, a ≠ some (.server s t e st r)) ∧
        (W'.servers s).cpu = (W.servers s).cpu ∧ W'.messages s = W.messages s) ∧
      (s = s' → ∃ d new, cpuProcessEvent (W.servers s).cpu ev = some ((W'.servers s).cpu, d) ∧
        Leaves P s W.now (W.servers s).state d a new ∧ W'.messages s = W.messages s + new) := by
    rintro lp evs new rfl rfl hne heq hleaves
    refine ⟨rfl, fun hs => ⟨?_, ?_, ?_⟩, ?_⟩
    · rintro t e st r rfl
      cases hleaves
      exact hs rfl
    · simp [World.setServer, hs]
    · rw [World.messages, World.setServer, cpuMessages_append, hne hs, add_zero]
      rfl
    · rintro rfl
      refine ⟨d, new, ?_, hleaves, ?_⟩
      · simp [World.setServer, hcpu]
      · rw [World.messages, World.setServer, cpuMessages_append, heq rfl]
        rfl
  cases d with
  | idle =>
    simp only [Option.pure_def, Option.some.injEq, Prod.mk.injEq] at h
    obtain ⟨rfl, rfl⟩ := h
    exact key _ _ 0 rfl rfl (fun _ => rfl) (fun _ => rfl) .idle
  | wait =>
    simp only [Option.pure_def, Option.some.injEq, Prod.mk.injEq] at h
    obtain ⟨rfl, rfl⟩ := h
    refine key _ _ {(W.now, .event)} rfl rfl (fun hs => ?_) ?_ .wait
    · simp [cpuMessages, Target.message?, Ne.symm hs]
    · rintro rfl
      simp [cpuMessages, Target.message?]
  | run e =>
    simp only [Option.bind_eq_some_iff, Prod.exists, Option.pure_def, Option.some.injEq,
      Prod.mk.injEq, Option.guard_eq_some'] at h
    obtain ⟨r, hr, net, elapsed, evs, hem, _, hlast, t, tgt, hfin, rfl, rfl⟩ := h
    have hzero : cpuMessages s evs = 0 := cpuMessages_eq_zero (emitServerAll_message hem)
    have hle := (emitServerAll_tasks hem).2
    obtain ⟨rfl, rfl⟩ := finish_message hfin
    refine key _ _ {(W.now + (elapsed + c.last), r.cont.message)} rfl rfl (fun hs => ?_) ?_
      (.run hr (by linarith))
    · rw [cpuMessages_append, hzero, zero_add]
      simp [cpuMessages, message?_of_ne (Ne.symm hs)]
    · rintro rfl
      rw [cpuMessages_append, hzero, zero_add]
      cases hc : r.cont <;> simp [cpuMessages, Target.message?, Cont.message]

theorem World.stepClient_cpu {c : Choice χ} {k : K} {e : E} {a : Option (Act S K E σ κ)}
    (h : W.stepClient P conf c k e = some (W', a)) (s : S) :
    W'.now = W.now ∧ (∀ t e st r, a ≠ some (.server s t e st r)) ∧
      (W'.servers s).cpu = (W.servers s).cpu ∧ W'.messages s = W.messages s := by
  simp only [World.stepClient, Option.bind_eq_bind, Option.bind_eq_some_iff, Prod.exists,
    Option.pure_def, Option.some.injEq, Prod.mk.injEq] at h
  obtain ⟨st, outs, -, net, evs, hem, rfl, rfl⟩ := h
  refine ⟨rfl, by simp, rfl, ?_⟩
  rw [World.messages, World.setClient, cpuMessages_append,
    cpuMessages_eq_zero (emitClientAll_message hem), add_zero]
  rfl

/-- **The step lemma.**  A step processes one of the earliest events; the CPU of `s` sees it only
if it is an event of `s`. -/
theorem World.step_cpu {c : Choice χ} {t : ℚ} {tgt : Target S K E} {a : Option (Act S K E σ κ)}
    (hev : W.events[c.pick]? = some (t, tgt)) (h : W.step P conf c = some (W', a)) (s : S) :
    W.now ≤ t ∧ (∀ ev ∈ W.events, t ≤ ev.1) ∧ W'.now = t ∧
      World.CpuStep P W s t tgt a W' := by
  simp only [World.step, Option.bind_eq_bind, hev, Option.bind_some, Option.bind_eq_some_iff,
    Option.guard_eq_some'] at h
  obtain ⟨_, ⟨hnow, hmin⟩, h⟩ := h
  refine ⟨hnow, hmin, ?_⟩
  have hold := cpuMessages_eraseIdx s hev
  cases tgt with
  | server s' ev =>
    obtain ⟨hn, hother, hown⟩ := World.stepServer_cpu (s := s) h
    refine ⟨hn, ?_⟩
    by_cases hs : s = s'
    · subst hs
      obtain ⟨d, new, hprocess, hleaves, hnew⟩ := hown rfl
      rw [message?_self] at hold
      exact .own hold hprocess hleaves hnew
    · obtain ⟨hact, hcpu, hmessages⟩ := hother hs
      refine .other (by simp [Ne.symm hs]) hact hcpu (hmessages.trans ?_)
      rw [World.messages, World.messages, hold, message?_of_ne (Ne.symm hs)]
      simp
  | client k e =>
    obtain ⟨hn, hact, hcpu, hmessages⟩ := World.stepClient_cpu h s
    refine ⟨hn, .other (by simp) hact hcpu (hmessages.trans ?_)⟩
    rw [World.messages, World.messages, hold]
    simp [Target.message?]

/-! ## 4. Traces that are computed -/

/-- The world and the records after these choices, if all of them describe events that meet
`G`. -/
def World.retrace (P : Program S K E σ κ χ) (conf : SimConfig S K E)
    (G : Record S K E σ κ → Prop) [DecidablePred G] : List (Choice χ) → World S K E σ κ →
      List (Record S K E σ κ) → Option (World S K E σ κ × List (Record S K E σ κ))
  | [], W, tr => some (W, tr)
  | c :: cs, W, tr => do
    let ev ← W.events[c.pick]?
    let (W', a) ← W.step P conf c
    guard (G ⟨W, ev.1, ev.2, a⟩)
    World.retrace P conf G cs W' (⟨W, ev.1, ev.2, a⟩ :: tr)

theorem World.Trace.retrace [DecidablePred G] {tr' : List (Record S K E σ κ)}
    (htrace : World.Trace P conf G W₀ W tr) {cs : List (Choice χ)}
    (hr : World.retrace P conf G cs W tr = some (W', tr')) :
    World.Trace P conf G W₀ W' tr' := by
  induction cs generalizing W tr with
  | nil =>
    cases hr
    exact htrace
  | cons c cs ih =>
    simp only [World.retrace, Option.bind_eq_bind, Option.bind_eq_some_iff, Prod.exists,
      Option.guard_eq_some'] at hr
    obtain ⟨t, tgt, hev, W₁, a, hstep, _, hG, hr⟩ := hr
    exact ih (.cons c htrace hev hstep hG) hr

/-- What is seen at the end of a computed trace is seen at the end of a trace. -/
theorem World.Trace.of_retrace (P : Program S K E σ κ χ) (conf : SimConfig S K E)
    (W₀ : World S K E σ κ) (G : Record S K E σ κ → Prop) [DecidablePred G] (cs : List (Choice χ))
    (seen : World S K E σ κ → Bool)
    (hr : (World.retrace P conf G cs W₀ []).any (fun x => seen x.1) = true) :
    ∃ W tr, World.Trace P conf G W₀ W tr ∧ seen W = true := by
  cases hx : World.retrace P conf G cs W₀ [] with
  | none => simp [hx] at hr
  | some x =>
    rw [hx] at hr
    exact ⟨x.1, x.2, World.Trace.nil.retrace hx, hr⟩

end CCSim
