/-
# Steps that do not fail

A step of the simulator fails if an assertion does: of the CPU, of the handler that runs, of
`network_send` for what the handler hands over, or of the lock that it gives back.  This file says
what is enough for the assertions that are not the handler's own (`World.step_isSome`):

* the CPU has no fault, which is known of the accounts of its cores and of its locks;
* everybody to whom something is sent is connected, and the interfaces are in order
  (`World.InterfacesInOrder`), which every step preserves;
* events are not in the past (`World.Ahead`), which every step preserves if no handler schedules an
  event for itself in the past (`Program.Forward`);
* a handler that gives a lock back runs with it.

What is left to the protocols is that their handlers succeed.
-/
import CCSim.Cpu.Cores
import CCSim.Network
import CCSim.Timing

namespace CCSim

variable {S K E σ κ χ : Type} [DecidableEq S] [DecidableEq K]

/-! ## 1. The network -/

/-- What is handed over can be sent: its addressee is connected. -/
def Out.Reaches (conf : NetworkConfig (S ⊕ K)) (x : S ⊕ K) : Out S K E → Prop
  | .toServer s _ => ∃ delay, conf.networkDelay x (.inl s) = some delay ∧ 0 ≤ delay
  | .toClient k _ => ∃ delay, conf.networkDelay x (.inr k) = some delay ∧ 0 ≤ delay
  | .self _ _ => True

section Network

variable {conf : SimConfig S K E} {s : S} {k : K}

theorem networkSend_keeps {N : Type} [DecidableEq N] {conf : NetworkConfig N}
    {net net' : NetworkState N} {fromLpid toLpid : N} {now u : ℚ} {size : ℕ}
    (hnet : net.InOrder conf fromLpid)
    (h : networkSend conf net fromLpid toLpid now size = some (net', u)) :
    net'.InOrder conf fromLpid := by
  have hguards := h
  simp only [networkSend, Option.bind_eq_bind, Option.bind_eq_some_iff, Option.guard_eq_some']
    at hguards
  obtain ⟨delay, hmem, _, hdelay, _, hrate, -⟩ := hguards
  obtain ⟨net'', hsend, hnet'', -⟩ := networkSend_inOrder hrate hnet ⟨toLpid, now, size⟩ hmem hdelay
  cases h.symm.trans hsend
  exact hnet''

theorem emitServer_keeps {net net' : NetworkState (S ⊕ K)} {t : ℚ} {o : Out S K E}
    {ev : ℚ × Target S K E} (hnet : net.InOrder conf.network (.inl s))
    (h : emitServer conf s net t o = some (net', ev)) : net'.InOrder conf.network (.inl s) := by
  cases o with
  | self =>
    simp only [emitServer, Option.some.injEq, Prod.mk.injEq] at h
    exact h.1 ▸ hnet
  | _ =>
    simp only [emitServer, Option.bind_eq_bind, Option.bind_eq_some_iff, Prod.exists,
      Option.pure_def, Option.some.injEq, Prod.mk.injEq] at h
    obtain ⟨_, _, hsend, rfl, -⟩ := h
    exact networkSend_keeps hnet hsend

theorem emitServerAll_keeps {now : ℚ} {outs : List (Out S K E)} :
    ∀ {draws : List ℚ} {net net' : NetworkState (S ⊕ K)} {elapsed elapsed' : ℚ}
      {evs : List (ℚ × Target S K E)}, net.InOrder conf.network (.inl s) →
      emitServerAll conf s now net elapsed outs draws = some (net', elapsed', evs) →
        net'.InOrder conf.network (.inl s) := by
  induction outs with
  | nil =>
    rintro (_ | ⟨d, draws⟩) net net' elapsed elapsed' evs hnet h
    · simp only [emitServerAll, Option.some.injEq, Prod.mk.injEq] at h
      exact h.1 ▸ hnet
    · simp [emitServerAll] at h
  | cons o outs ih =>
    rintro (_ | ⟨d, draws⟩) net net' elapsed elapsed' evs hnet h
    · simp [emitServerAll] at h
    · simp only [emitServerAll, Option.bind_eq_bind, Option.bind_eq_some_iff, Prod.exists,
        Option.guard_eq_some', Option.pure_def, Option.some.injEq, Prod.mk.injEq] at h
      obtain ⟨_, -, net₁, t, tgt, h₁, net₂, _, _, h₂, rfl, -⟩ := h
      exact ih (emitServer_keeps hnet h₁) h₂

theorem emitClient_keeps {net net' : NetworkState (S ⊕ K)} {t : ℚ} {o : Out S K E}
    {ev : ℚ × Target S K E} (hnet : net.InOrder conf.network (.inr k))
    (h : emitClient conf k net t o = some (net', ev)) : net'.InOrder conf.network (.inr k) := by
  cases o with
  | self =>
    simp only [emitClient, Option.some.injEq, Prod.mk.injEq] at h
    exact h.1 ▸ hnet
  | _ =>
    simp only [emitClient, Option.bind_eq_bind, Option.bind_eq_some_iff, Prod.exists,
      Option.pure_def, Option.some.injEq, Prod.mk.injEq] at h
    obtain ⟨_, _, hsend, rfl, -⟩ := h
    exact networkSend_keeps hnet hsend

theorem emitClientAll_keeps {now : ℚ} {outs : List (Out S K E)} :
    ∀ {net net' : NetworkState (S ⊕ K)} {evs : List (ℚ × Target S K E)},
      net.InOrder conf.network (.inr k) → emitClientAll conf k now net outs = some (net', evs) →
        net'.InOrder conf.network (.inr k) := by
  induction outs with
  | nil =>
    intro net net' evs hnet h
    simp only [emitClientAll, Option.some.injEq, Prod.mk.injEq] at h
    exact h.1 ▸ hnet
  | cons o outs ih =>
    intro net net' evs hnet h
    simp only [emitClientAll, Option.bind_eq_bind, Option.bind_eq_some_iff, Prod.exists,
      Option.pure_def, Option.some.injEq, Prod.mk.injEq] at h
    obtain ⟨net₁, t, tgt, h₁, net₂, _, h₂, rfl, -⟩ := h
    exact ih (emitClient_keeps hnet h₁) h₂

/-- What can be sent is sent. -/
theorem emitServer_isSome (hrate : 0 < conf.network.transmissionRates (.inl s))
    {net : NetworkState (S ⊕ K)} (hnet : net.InOrder conf.network (.inl s)) {o : Out S K E}
    (ho : o.Reaches conf.network (.inl s)) (t : ℚ) : (emitServer conf s net t o).isSome := by
  cases o with
  | self => rfl
  | toServer s' e =>
    obtain ⟨delay, hmem, hdelay⟩ := ho
    obtain ⟨net', hsend, -⟩ := networkSend_inOrder hrate hnet
      ⟨.inl s', t, conf.simulatedSize e⟩ hmem hdelay
    simp only [emitServer, Option.bind_eq_bind, hsend]
    rfl
  | toClient k e =>
    obtain ⟨delay, hmem, hdelay⟩ := ho
    obtain ⟨net', hsend, -⟩ := networkSend_inOrder hrate hnet
      ⟨.inr k, t, conf.simulatedSize e⟩ hmem hdelay
    simp only [emitServer, Option.bind_eq_bind, hsend]
    rfl

theorem emitServerAll_isSome (hrate : 0 < conf.network.transmissionRates (.inl s)) (now : ℚ)
    {outs : List (Out S K E)} : ∀ {draws : List ℚ} {net : NetworkState (S ⊕ K)} (elapsed : ℚ),
      net.InOrder conf.network (.inl s) → (∀ o ∈ outs, o.Reaches conf.network (.inl s)) →
      draws.length = outs.length → (∀ d ∈ draws, 0 ≤ d) → ∃ net' evs,
        emitServerAll conf s now net elapsed outs draws =
          some (net', elapsed + draws.sum, evs) := by
  induction outs with
  | nil =>
    intro draws net elapsed _ _ hlength _
    rw [List.length_nil, List.length_eq_zero_iff] at hlength
    subst hlength
    exact ⟨net, [], by rw [List.sum_nil, add_zero]; rfl⟩
  | cons o outs ih =>
    rintro (_ | ⟨d, draws⟩) net elapsed hnet houts hlength hdraws
    · cases hlength
    · obtain ⟨ho, houts⟩ := List.forall_mem_cons.mp houts
      obtain ⟨hd, hdraws⟩ := List.forall_mem_cons.mp hdraws
      obtain ⟨⟨net₁, ev⟩, h₁⟩ := Option.isSome_iff_exists.mp
        (emitServer_isSome hrate hnet ho (now + (elapsed + d)))
      obtain ⟨net₂, evs, h₂⟩ := ih (elapsed + d) (emitServer_keeps hnet h₁) houts
        (Nat.succ.inj hlength) hdraws
      refine ⟨net₂, ev :: evs, ?_⟩
      simp only [emitServerAll, Option.bind_eq_bind, guard, if_pos hd, Option.pure_def,
        Option.bind_some, h₁, h₂, List.sum_cons, add_assoc]

theorem emitClientAll_isSome (hrate : 0 < conf.network.transmissionRates (.inr k)) (now : ℚ)
    {outs : List (Out S K E)} : ∀ {net : NetworkState (S ⊕ K)},
      net.InOrder conf.network (.inr k) → (∀ o ∈ outs, o.Reaches conf.network (.inr k)) →
        (emitClientAll conf k now net outs).isSome := by
  induction outs with
  | nil => exact fun _ _ => rfl
  | cons o outs ih =>
    intro net hnet houts
    obtain ⟨ho, houts⟩ := List.forall_mem_cons.mp houts
    have hone : (emitClient conf k net now o).isSome := by
      cases o with
      | self => rfl
      | toServer s' e =>
        obtain ⟨delay, hmem, hdelay⟩ := ho
        obtain ⟨net', hsend, -⟩ := networkSend_inOrder hrate hnet
          ⟨.inl s', now, conf.simulatedSize e⟩ hmem hdelay
        simp only [emitClient, Option.bind_eq_bind, hsend]
        rfl
      | toClient k' e =>
        obtain ⟨delay, hmem, hdelay⟩ := ho
        obtain ⟨net', hsend, -⟩ := networkSend_inOrder hrate hnet
          ⟨.inr k', now, conf.simulatedSize e⟩ hmem hdelay
        simp only [emitClient, Option.bind_eq_bind, hsend]
        rfl
    obtain ⟨⟨net₁, ev⟩, h₁⟩ := Option.isSome_iff_exists.mp hone
    obtain ⟨⟨net₂, evs⟩, h₂⟩ := Option.isSome_iff_exists.mp (ih (emitClient_keeps hnet h₁) houts)
    simp only [emitClientAll, Option.bind_eq_bind, h₁, Option.bind_some, h₂]
    rfl

/-- What a server hands over is due no earlier than its delay says. -/
theorem emitServerAll_times {now : ℚ} {outs : List (Out S K E)} :
    ∀ {draws : List ℚ} {net net' : NetworkState (S ⊕ K)} {elapsed elapsed' : ℚ}
      {evs : List (ℚ × Target S K E)}, 0 ≤ elapsed →
      emitServerAll conf s now net elapsed outs draws = some (net', elapsed', evs) →
        ∀ x ∈ evs, ∃ o ∈ outs, o.earliest now ≤ x.1 := by
  induction outs with
  | nil =>
    rintro (_ | ⟨d, draws⟩) net net' elapsed elapsed' evs h0 h
    · simp only [emitServerAll, Option.some.injEq, Prod.mk.injEq] at h
      obtain ⟨-, -, rfl⟩ := h
      exact List.forall_mem_nil _
    · simp [emitServerAll] at h
  | cons o outs ih =>
    rintro (_ | ⟨d, draws⟩) net net' elapsed elapsed' evs h0 h
    · simp [emitServerAll] at h
    · simp only [emitServerAll, Option.bind_eq_bind, Option.bind_eq_some_iff, Prod.exists,
        Option.guard_eq_some', Option.pure_def, Option.some.injEq, Prod.mk.injEq] at h
      obtain ⟨_, hd, net₁, t, tgt, h₁, net₂, _, evs₂, h₂, -, -, rfl⟩ := h
      refine List.forall_mem_cons.mpr ⟨⟨o, List.mem_cons_self, ?_⟩, fun x hx => ?_⟩
      · exact (o.earliest_mono (by linarith)).trans (emitServer_due h₁).1
      · obtain ⟨o', ho', hu⟩ := ih (by linarith) h₂ x hx
        exact ⟨o', List.mem_cons_of_mem o ho', hu⟩

theorem emitClient_le {net net' : NetworkState (S ⊕ K)} {t u : ℚ} {o : Out S K E}
    {tgt : Target S K E} (h : emitClient conf k net t o = some (net', u, tgt)) :
    o.earliest t ≤ u := by
  cases o with
  | self delay e =>
    simp only [emitClient, Option.some.injEq, Prod.mk.injEq] at h
    exact h.2.1.le
  | _ =>
    simp only [emitClient, Option.bind_eq_bind, Option.bind_eq_some_iff, Prod.exists,
      Option.pure_def, Option.some.injEq, Prod.mk.injEq] at h
    obtain ⟨_, _, hsend, -, rfl, -⟩ := h
    exact networkSend_le hsend

theorem emitClientAll_times {now : ℚ} {outs : List (Out S K E)} :
    ∀ {net net' : NetworkState (S ⊕ K)} {evs : List (ℚ × Target S K E)},
      emitClientAll conf k now net outs = some (net', evs) →
        ∀ x ∈ evs, ∃ o ∈ outs, o.earliest now ≤ x.1 := by
  induction outs with
  | nil =>
    intro net net' evs h
    simp only [emitClientAll, Option.some.injEq, Prod.mk.injEq] at h
    obtain ⟨-, rfl⟩ := h
    exact List.forall_mem_nil _
  | cons o outs ih =>
    intro net net' evs h
    simp only [emitClientAll, Option.bind_eq_bind, Option.bind_eq_some_iff, Prod.exists,
      Option.pure_def, Option.some.injEq, Prod.mk.injEq] at h
    obtain ⟨net₁, t, tgt, h₁, net₂, evs₂, h₂, -, rfl⟩ := h
    refine List.forall_mem_cons.mpr ⟨⟨o, List.mem_cons_self, emitClient_le h₁⟩, fun x hx => ?_⟩
    obtain ⟨o', ho', hu⟩ := ih h₂ x hx
    exact ⟨o', List.mem_cons_of_mem o ho', hu⟩

end Network

/-! ## 2. What every step preserves -/

/-- The interface of every process is in order. -/
def World.InterfacesInOrder (conf : SimConfig S K E) (W : World S K E σ κ) : Prop :=
  (∀ s, (W.servers s).network.InOrder conf.network (.inl s)) ∧
    ∀ k, (W.clients k).network.InOrder conf.network (.inr k)

/-- No event is in the past. -/
def World.Ahead (W : World S K E σ κ) : Prop := ∀ ev ∈ W.events, W.now ≤ ev.1

/-- What is handed over is not for the past. -/
def Out.Forward : Out S K E → Prop
  | .self delay _ => 0 ≤ delay
  | _ => True

/-- Handlers do not schedule events for themselves in the past. -/
structure Program.Forward (P : Program S K E σ κ χ) : Prop where
  serve : ∀ {s t st e r}, P.serve s t st e = some r → ∀ o ∈ r.outs, o.Forward
  client : ∀ {k t x st e r}, P.client k t x st e = some r → ∀ o ∈ r.2, o.Forward

section Steps

variable {P : Program S K E σ κ χ} {conf : SimConfig S K E} {c : Choice χ} {W W' : World S K E σ κ}
  {a : Option (Act S K E σ κ)}

theorem World.InterfacesInOrder.stepServer {s : S} {ev : CpuEvent E}
    (hW : W.InterfacesInOrder conf) (h : W.stepServer P conf c s ev = some (W', a)) :
    W'.InterfacesInOrder conf := by
  have hset : ∀ (lp : ServerLp S K E σ) (evs : List (ℚ × Target S K E)),
      lp.network.InOrder conf.network (.inl s) → (W.setServer s lp evs).InterfacesInOrder conf := by
    refine fun lp evs hlp => ⟨fun s' => ?_, hW.2⟩
    by_cases hs : s' = s
    · subst hs
      simpa only [World.setServer, Function.update_self] using hlp
    · simpa only [World.setServer, Function.update_of_ne hs] using hW.1 s'
  simp only [World.stepServer, Option.bind_eq_bind, Option.bind_eq_some_iff, Prod.exists] at h
  obtain ⟨cpu, d, -, h⟩ := h
  cases d with
  | idle =>
    simp only [Option.pure_def, Option.some.injEq, Prod.mk.injEq] at h
    exact h.1 ▸ hset _ _ (hW.1 s)
  | wait =>
    simp only [Option.pure_def, Option.some.injEq, Prod.mk.injEq] at h
    exact h.1 ▸ hset _ _ (hW.1 s)
  | run e =>
    simp only [Option.bind_eq_some_iff, Prod.exists, Option.pure_def, Option.some.injEq,
      Prod.mk.injEq, Option.guard_eq_some'] at h
    obtain ⟨r, -, net, elapsed, evs, hem, _, -, t, tgt, -, rfl, -⟩ := h
    exact hset _ _ (emitServerAll_keeps (hW.1 s) hem)

theorem World.InterfacesInOrder.stepClient {k : K} {e : E} (hW : W.InterfacesInOrder conf)
    (h : W.stepClient P conf c k e = some (W', a)) : W'.InterfacesInOrder conf := by
  simp only [World.stepClient, Option.bind_eq_bind, Option.bind_eq_some_iff, Prod.exists,
    Option.pure_def, Option.some.injEq, Prod.mk.injEq] at h
  obtain ⟨st, outs, -, net, evs, hem, rfl, -⟩ := h
  refine ⟨hW.1, fun k' => ?_⟩
  by_cases hk : k' = k
  · subst hk
    simpa only [World.setClient, Function.update_self] using emitClientAll_keeps (hW.2 k') hem
  · simpa only [World.setClient, Function.update_of_ne hk] using hW.2 k'

theorem World.InterfacesInOrder.step (hW : W.InterfacesInOrder conf)
    (h : W.step P conf c = some (W', a)) : W'.InterfacesInOrder conf := by
  simp only [World.step, Option.bind_eq_bind, Option.bind_eq_some_iff, Prod.exists,
    Option.guard_eq_some'] at h
  obtain ⟨t, tgt, -, _, -, h⟩ := h
  have hW' : ({ W with now := t, events := W.events.eraseIdx c.pick } :
    World S K E σ κ).InterfacesInOrder conf := hW
  cases tgt with
  | server s ev => exact hW'.stepServer h
  | client k e => exact hW'.stepClient h

omit [DecidableEq S] [DecidableEq K] in
/-- New events that are not in the past. -/
theorem World.Ahead.append {evs : List (ℚ × Target S K E)} (hW : W.Ahead)
    (hevs : ∀ x ∈ evs, W.now ≤ x.1) : ∀ x ∈ W.events ++ evs, W.now ≤ x.1 := fun x hx =>
  (List.mem_append.mp hx).elim (hW x) (hevs x)

omit [DecidableEq S] [DecidableEq K] in
theorem Out.Forward.le_earliest {now : ℚ} {o : Out S K E} (ho : o.Forward) :
    now ≤ o.earliest now := by
  cases o with
  | self delay e => exact le_add_of_nonneg_right ho
  | _ => exact le_rfl

/-- What a server schedules is not in the past. -/
theorem World.Ahead.stepServer {s : S} {ev : CpuEvent E} (hP : P.Forward) (hW : W.Ahead)
    (h : W.stepServer P conf c s ev = some (W', a)) : W'.Ahead := by
  simp only [World.stepServer, Option.bind_eq_bind, Option.bind_eq_some_iff, Prod.exists] at h
  obtain ⟨cpu, d, -, h⟩ := h
  cases d with
  | idle =>
    simp only [Option.pure_def, Option.some.injEq, Prod.mk.injEq] at h
    exact h.1 ▸ hW.append (List.forall_mem_nil _)
  | wait =>
    simp only [Option.pure_def, Option.some.injEq, Prod.mk.injEq] at h
    exact h.1 ▸ hW.append (List.forall_mem_singleton.mpr le_rfl)
  | run e =>
    simp only [Option.bind_eq_some_iff, Prod.exists, Option.pure_def, Option.some.injEq,
      Prod.mk.injEq, Option.guard_eq_some'] at h
    obtain ⟨r, hr, net, elapsed, evs, hem, _, hlast, t, tgt, hfin, rfl, -⟩ := h
    have hle := (emitServerAll_tasks hem).2
    refine hW.append fun x hx => ?_
    rcases List.mem_append.mp hx with hx | hx
    · obtain ⟨o, ho, hu⟩ := emitServerAll_times le_rfl hem x hx
      exact (hP.serve hr o ho).le_earliest.trans hu
    · rw [List.mem_singleton.mp hx, (finish_message hfin).1]
      linarith

theorem World.Ahead.stepClient {k : K} {e : E} (hP : P.Forward) (hW : W.Ahead)
    (h : W.stepClient P conf c k e = some (W', a)) : W'.Ahead := by
  simp only [World.stepClient, Option.bind_eq_bind, Option.bind_eq_some_iff, Prod.exists,
    Option.pure_def, Option.some.injEq, Prod.mk.injEq] at h
  obtain ⟨st, outs, hr, net, evs, hem, rfl, -⟩ := h
  refine hW.append fun x hx => ?_
  obtain ⟨o, ho, hu⟩ := emitClientAll_times hem x hx
  exact (hP.client hr o ho).le_earliest.trans hu

theorem World.Ahead.step (hP : P.Forward) (h : W.step P conf c = some (W', a)) : W'.Ahead := by
  simp only [World.step, Option.bind_eq_bind, Option.bind_eq_some_iff, Prod.exists,
    Option.guard_eq_some'] at h
  obtain ⟨t, tgt, -, _, ⟨-, hfirst⟩, h⟩ := h
  have hW' : ({ W with now := t, events := W.events.eraseIdx c.pick } :
    World S K E σ κ).Ahead := fun ev hev => hfirst ev (List.mem_of_mem_eraseIdx hev)
  cases tgt with
  | server s ev => exact hW'.stepServer hP h
  | client k e => exact hW'.stepClient hP h

/-! ## 3. Locks -/

omit [DecidableEq S] [DecidableEq K] in
/-- No event creates a lock or destroys one. -/
theorem Processed.hasLock {cpu cpu' : CpuState E} {ev : CpuEvent E} {d : Dispatch E}
    (h : Processed cpu ev cpu' d) : cpu'.HasLock = cpu.HasLock := by
  have key : ∀ {c : CpuState E} {x}, Took c x cpu' d → cpu'.HasLock = c.HasLock := by
    intro c x hx
    cases hx with
    | event => exact hasLock_busyCores _ _
    | granted _ _ _ _ hhas => exact hhas
    | blocked _ _ _ _ hhas => exact hhas
  cases h with
  | queued => exact hasLock_queue _ _
  | idle hc => exact hc.has
  | own hc _ hx => exact (key hx).trans hc.has
  | next hc _ _ hx => exact ((key hx).trans (hasLock_queue _ _)).trans hc.has

/-- All locks are mutexes, and there are `locks` of them. -/
structure OnlyMutexes (kind : E → Kind) (locks : ℕ) : Prop where
  mutex : ∀ {e m id}, kind e = .locked m id → m = .mutex
  lt : ∀ {e m id}, kind e = .locked m id → id < locks

/-- A release is one of a mutex. -/
def Task.FreesMutex : Task S K E → Prop
  | .release _ m _ _ _ => m = .mutex
  | _ => True

end Steps

/-! ## 4. What holds all along a run -/

section Runs

variable [Fintype S] {P : Program S K E σ κ χ} {conf : SimConfig S K E} {C : Cond S K E σ κ}
  {W₀ W : World S K E σ κ} {h : List (Act S K E σ κ)} {kind : E → Kind} {locks : ℕ}

/-- What the simulator's own assertions rest on. -/
structure World.Sound (kind : E → Kind) (locks : ℕ) (conf : SimConfig S K E)
    (W : World S K E σ κ) : Prop where
  accounts : ∀ s, W.Accounts s
  exclusive : Exclusive kind W.config
  frees : ∀ x ∈ W.config.pool, x.FreesMutex
  has : ∀ s, ∀ id < locks, (W.servers s).cpu.HasLock .mutex id
  interfaces : W.InterfacesInOrder conf

omit [Fintype S] in
theorem Run.frees {A₀ A : Config S K E σ κ} (hP : Disciplined P kind)
    (hmutex : OnlyMutexes kind locks) (h₀ : ∀ x ∈ A₀.pool, x.FreesMutex) (hr : Run P C A₀ A h) :
    ∀ x ∈ A.pool, x.FreesMutex := by
  refine Run.induction (I := fun A _ => ∀ x ∈ A.pool, x.FreesMutex) h₀ ?_ hr
  intro A A' h a _ hA hs _ x hx
  cases hs with
  | serve hpool _ _ hserve hnew =>
    obtain ⟨u, -, -, rfl⟩ := hnew
    rcases Multiset.mem_add.mp hx with hx | hx
    · exact hA x (hpool ▸ Multiset.mem_cons_of_mem hx)
    · rcases Outcome.mem_tasks.mp (Multiset.mem_coe.mp hx) with
        ⟨o, -, rfl⟩ | ⟨m, id, e, -, rfl⟩ | ⟨m, id, e, hcont, rfl⟩
      · cases o <;> trivial
      · trivial
      · exact hmutex.mutex (hP.unlock hserve hcont).1
  | release hpool => exact hA x (hpool ▸ Multiset.mem_cons_of_mem hx)
  | client hpool =>
    rcases Multiset.mem_add.mp hx with hx | hx
    · exact hA x (hpool ▸ Multiset.mem_cons_of_mem hx)
    · obtain ⟨o, -, rfl⟩ := List.mem_map.mp (Multiset.mem_coe.mp hx)
      cases o <;> trivial
  | wait => exact hA x hx

omit [Fintype S] in
theorem World.Trace.hasLock {G : Record S K E σ κ → Prop} {tr : List (Record S K E σ κ)}
    (htrace : World.Trace P conf G W₀ W tr) (s : S) :
    (W.servers s).cpu.HasLock = (W₀.servers s).cpu.HasLock := by
  induction htrace with
  | nil => rfl
  | cons c _ hev hstep _ ih =>
    obtain ⟨-, -, -, h⟩ := World.step_cpu hev hstep s
    cases h with
    | other _ _ hcpu => rw [hcpu, ih]
    | own _ hprocess => rw [(cpuProcessEvent_processed hprocess).hasLock, ih]

omit [Fintype S] [DecidableEq S] [DecidableEq K] in
/-- What runs as it arrives has just arrived. -/
theorem Ready.arrived {s : S} {t : ℚ} {tb tb' : LockTable} {x : Task S K E} {e : E}
    (h : Ready s t tb x e tb') (hx : WellPlaced kind x) (he : kind e = .plain) :
    x = .pending s e := by
  cases h with
  | pending => rfl
  | request => cases he.symm.trans hx
  | release => cases he.symm.trans (hx e rfl)

omit [Fintype S] in
/-- The time that a server has noted is the one of an event that it has handled. -/
theorem Run.noted_le {A₀ A : Config S K E σ κ} (noted : σ → ℚ)
    (hP : ∀ {s t st e r}, P.serve s t st e = some r → noted r.state = t)
    (h₀ : ∀ s, noted (A₀.server s) ≤ A₀.now) (hr : Run P C A₀ A h) (s : S) :
    noted (A.server s) ≤ A.now := by
  refine Run.induction (I := fun A _ => ∀ s, noted (A.server s) ≤ A.now) h₀ ?_ hr s
  intro A A' h a _ hA hs _ s'
  cases hs with
  | @serve s t x e tb r rest new _ ht _ hserve _ =>
    dsimp only
    by_cases hs : s' = s
    · subst hs
      rw [Function.update_self, hP hserve]
    · rw [Function.update_of_ne hs]
      exact (hA s').trans ht
  | release _ ht => exact (hA s').trans ht
  | client _ ht => exact (hA s').trans ht
  | wait ht => exact (hA s').trans ht

omit [Fintype S] in
/-- What a handler with a mutex leaves in the state for the event after it is still there when this
event is handled: no other handler with the mutex runs in between. -/
theorem Run.released {A₀ A : Config S K E σ κ} (good : S → σ → E → Prop) {id : ℕ}
    (hP : Disciplined P kind) (h₀ : Exclusive kind A₀)
    (hstart : ∀ s e u, .release s .mutex id e u ∉ A₀.pool)
    (hunlock : ∀ {A h s t e r e'}, Run P C A₀ A h → P.serve s t (A.server s) e = some r →
      r.cont = .unlock .mutex id (some e') → good s r.state e')
    (hkeep : ∀ {A h s t e r e'}, Run P C A₀ A h → P.serve s t (A.server s) e = some r →
      kind e ≠ .locked .mutex id → kind e ≠ .unlocked .mutex id → good s (A.server s) e' →
        good s r.state e')
    (hr : Run P C A₀ A h) :
    ∀ s e u, .release s .mutex id (some e) u ∈ A.pool → good s (A.server s) e := by
  refine Run.induction (I := fun A _ => ∀ s e u, .release s .mutex id (some e) u ∈ A.pool →
    good s (A.server s) e) (fun s e u hm => absurd hm (hstart s _ u)) ?_ hr
  intro A A' h a hrun hA hs _ s' e' u' hm
  have hE := hrun.exclusive hP h₀
  cases hs with
  | @serve s t x e tb r rest new hpool ht hready hserve hnew =>
    obtain ⟨u, -, -, rfl⟩ := hnew
    dsimp only at hm ⊢
    have hplaced : WellPlaced kind x := hE.placed x (hpool ▸ Multiset.mem_cons_self _ _)
    by_cases hs : s' = s
    · subst hs
      rw [Function.update_self]
      rcases Multiset.mem_add.mp hm with hm | hm
      · have hmem := hpool ▸ Multiset.mem_cons_of_mem hm
        refine hkeep hrun hserve (fun hlocked => ?_) (fun hunlocked => ?_) (hA s' e' u' hmem)
        · exact hE.not_mem (hready.granted hplaced hlocked).1 _ u' hmem
        · obtain ⟨u, rfl⟩ := hready.released hplaced hunlocked
          exact hE.not_mem_rest hpool _ u' hm
      · exact hunlock hrun hserve (Outcome.release_mem_tasks.mp (Multiset.mem_coe.mp hm)).2.2
    · rw [Function.update_of_ne hs]
      rcases Multiset.mem_add.mp hm with hm | hm
      · exact hA s' e' u' (hpool ▸ Multiset.mem_cons_of_mem hm)
      · exact absurd (Outcome.release_mem_tasks.mp (Multiset.mem_coe.mp hm)).1 hs
  | release hpool => exact hA s' e' u' (hpool ▸ Multiset.mem_cons_of_mem hm)
  | client hpool =>
    rcases Multiset.mem_add.mp hm with hm | hm
    · exact hA s' e' u' (hpool ▸ Multiset.mem_cons_of_mem hm)
    · obtain ⟨o, -, ho⟩ := List.mem_map.mp (Multiset.mem_coe.mp hm)
      cases o <;> cases ho
  | wait => exact hA s' e' u' hm

theorem World.Run.interfaces (h₀ : W₀.InterfacesInOrder conf) (hr : World.Run P conf C W₀ W h) :
    W.InterfacesInOrder conf := by
  induction hr with
  | nil => exact h₀
  | cons c _ hstep _ ih => exact ih.step hstep

/-- **Soundness holds all along a run.** -/
theorem World.Run.sound (hP : Disciplined P kind) (hmutex : OnlyMutexes kind locks)
    (hfresh : W₀.Fresh) (hW₀ : W₀.Sound kind locks conf) (hr : World.Run P conf C W₀ W h) :
    W.Sound kind locks conf := by
  obtain ⟨tr, htrace, -⟩ := hr.trace
  exact ⟨fun s => (htrace.accounts hfresh s).1, Run.exclusive hP hW₀.exclusive hr.config,
    hr.config.frees hP hmutex hW₀.frees,
    fun s id hid => (htrace.hasLock s).symm ▸ hW₀.has s id hid, hr.interfaces hW₀.interfaces⟩

end Runs

/-! ## 5. One step -/

/-- The CPU times of a choice suit what the handler does: one for each thing handed over, and more
than none altogether, unless that is allowed. -/
structure Choice.Suits (c : Choice χ) (r : Outcome S K E σ) : Prop where
  length : c.draws.length = r.outs.length
  draws : ∀ d ∈ c.draws, 0 ≤ d
  last : 0 ≤ c.last
  after : 0 ≤ c.after
  pos : r.noTime = true ∨ 0 < c.draws.sum + c.last

instance (c : Choice χ) (r : Outcome S K E σ) : Decidable (c.Suits r) :=
  decidable_of_iff (c.draws.length = r.outs.length ∧ (∀ d ∈ c.draws, 0 ≤ d) ∧ 0 ≤ c.last ∧
    0 ≤ c.after ∧ (r.noTime = true ∨ 0 < c.draws.sum + c.last))
    ⟨fun ⟨h₁, h₂, h₃, h₄, h₅⟩ => ⟨h₁, h₂, h₃, h₄, h₅⟩,
    fun ⟨h₁, h₂, h₃, h₄, h₅⟩ => ⟨h₁, h₂, h₃, h₄, h₅⟩⟩

/-- The handler that an entry of the event list runs, if it runs one. -/
def World.next (W : World S K E σ κ) (pick : ℕ) : Option (S × ℚ × E) :=
  match W.events[pick]? with
  | some (t, .server s ev) =>
    match cpuProcessEvent (W.servers s).cpu ev with
    | some (_, .run e) => some (s, t, e)
    | _ => none
  | _ => none

/-- An entry of the event list that is one of the earliest, and no `CPU_EVENT` for a busy CPU. -/
def World.Due (W : World S K E σ κ) (pick : ℕ) : Prop :=
  ∃ t tgt, W.events[pick]? = some (t, tgt) ∧ (∀ ev ∈ W.events, t ≤ ev.1) ∧
    ∀ s, tgt = .server s .event → cpuBusy (W.servers s).cpu = false

/-- The test of `World.Due`. -/
def World.isDue (W : World S K E σ κ) (pick : ℕ) : Bool :=
  W.events[pick]?.any fun ev => W.events.all (fun ev' => decide (ev.1 ≤ ev'.1)) &&
    match ev.2 with
    | .server s .event => !cpuBusy (W.servers s).cpu
    | _ => true

omit [DecidableEq S] [DecidableEq K] in
theorem World.due_of_isDue {W : World S K E σ κ} {pick : ℕ} (h : W.isDue pick = true) :
    W.Due pick := by
  obtain ⟨⟨t, tgt⟩, hev, h⟩ := (Option.any_eq_true _ _).mp h
  obtain ⟨hall, hbusy⟩ := Bool.and_eq_true_iff.mp h
  refine ⟨t, tgt, hev, fun ev hmem => of_decide_eq_true (List.all_eq_true.mp hall ev hmem), ?_⟩
  rintro s rfl
  exact Bool.not_eq_true' _ |>.mp hbusy

/-- Whatever can be handled now, or when only time has passed, is handled without a failure, and
what the handler hands over can be sent.  This is asked of the events `G` of servers and of the
decisions `D` of workloads. -/
structure Config.Handles (P : Program S K E σ κ χ) (conf : NetworkConfig (S ⊕ K)) (G : E → Prop)
    (D : χ → Prop) (A : Config S K E σ κ) : Prop where
  serve : ∀ {x s t tb tb' e}, x ∈ A.pool → A.now ≤ t → Ready s t tb x e tb' → G e →
    ∃ r, P.serve s t (A.server s) e = some r ∧ ∀ o ∈ r.outs, o.Reaches conf (.inl s)
  client : ∀ {k e t d}, .client k e ∈ A.pool → A.now ≤ t → D d →
    ∃ r, P.client k t d (A.client k) e = some r ∧ ∀ o ∈ r.2, o.Reaches conf (.inr k)

section Step

variable [Fintype S] {P : Program S K E σ κ χ} {conf : SimConfig S K E} {c : Choice χ}
  {W : World S K E σ κ} {kind : E → Kind} {locks : ℕ} {G : E → Prop} {D : χ → Prop} {s : S}
  {t : ℚ}

omit [DecidableEq S] [DecidableEq K] in
/-- An entry of the event list that stands for a task. -/
theorem World.task_mem {tgt : Target S K E} {x : Task S K E} (hev : (t, tgt) ∈ W.events)
    (hx : tgt.task t = some x) : x ∈ W.config.pool :=
  Multiset.mem_add.mpr (.inl (Multiset.mem_coe.mpr (List.mem_filterMap.mpr ⟨_, hev, hx⟩)))

omit [DecidableEq S] [DecidableEq K] in
theorem World.item_mem {item : CpuListItem E} (hitem : item ∈ (W.servers s).cpu.items) :
    (item.task s : Task S K E) ∈ W.config.pool :=
  Multiset.mem_add.mpr (.inr (World.mem_waiting hitem))

omit [DecidableEq S] [DecidableEq K] in
/-- The handler that an entry of the event list runs is the one of a task that is ready. -/
theorem World.run_ready {ev : CpuEvent E} {cpu : CpuState E} {e : E}
    (hev : (t, .server s ev) ∈ W.events)
    (hcpu : cpuProcessEvent (W.servers s).cpu ev = some (cpu, .run e)) :
    ∃ x tb, x ∈ W.config.pool ∧ Ready s t tb x e cpu.table := by
  obtain ⟨x, tb, hready, hx⟩ := cpuProcessEvent_ready (K := K) hcpu s t
  refine ⟨x, tb, ?_, hready⟩
  rcases hx with hx | ⟨item, hitem, rfl⟩
  · exact World.task_mem hev hx
  · exact World.item_mem hitem

omit [DecidableEq S] [DecidableEq K] in
theorem World.next_ready {pick : ℕ} {e : E} (h : W.next pick = some (s, t, e)) :
    ∃ x tb tb', x ∈ W.config.pool ∧ Ready s t tb x e tb' := by
  unfold World.next at h
  split at h
  · rename_i hev
    split at h
    · rename_i hcpu
      cases h
      obtain ⟨x, tb, hx, hready⟩ := World.run_ready (List.mem_of_getElem? hev) hcpu
      exact ⟨x, tb, _, hx, hready⟩
    · cases h
  · cases h

omit [Fintype S] [DecidableEq K] in
/-- A pending message of the CPU that holds a core is accounted for. -/
theorem World.Accounts.cores_le {ev : CpuEvent E} (h : W.Accounts s)
    (hev : (t, .server s ev) ∈ W.events) : ev.cores ≤ (W.servers s).cpu.busyCores := by
  by_cases hcore : ev.cores = 1
  · rw [hcore, ← h.held]
    refine Multiset.countP_pos.mpr ⟨(t, ev), World.mem_messages.mpr ⟨hev, ?_⟩, hcore⟩
    rintro e rfl
    cases hcore
  · have := ev.cores_le
    omega

omit [DecidableEq S] [DecidableEq K] [Fintype S] in
/-- A mutex that is held can be given back. -/
theorem mayRelease_of_mutex {cpu : CpuState E} {id : ℕ} (h : cpu.table.mutex id = true) :
    cpu.MayRelease .mutex id := by
  cases hl : cpu.locks[id]? with
  | none => simp [CpuState.table, hl] at h
  | some l => exact ⟨l, hl, (table_mutex hl).symm.trans h⟩

omit [DecidableEq K] in
/-- The CPU can process each of its events, but for a `CPU_EVENT` that finds it busy. -/
theorem World.Sound.cpuProcessEvent_isSome {ev : CpuEvent E} (hW : W.Sound kind locks conf)
    (hmutex : OnlyMutexes kind locks) (hev : (t, .server s ev) ∈ W.events)
    (hbusy : ev = .event → cpuBusy (W.servers s).cpu = false) :
    (cpuProcessEvent (W.servers s).cpu ev).isSome := by
  have hacc := hW.accounts s
  refine CCSim.cpuProcessEvent_isSome (hacc.cores_le hev) hacc.le hacc.named ?_
  rintro (h | ⟨m, id, e, h⟩ | ⟨m, id, e, h⟩)
  · exact absurd h (by rw [hbusy rfl]; exact Bool.false_ne_true)
  · have hplaced : kind e = .locked m id :=
      hW.exclusive.placed _ (World.task_mem hev (x := .request s m id e) rfl)
    obtain rfl := hmutex.mutex hplaced
    exact h (hW.has s id (hmutex.lt hplaced))
  · have hmem := World.task_mem hev (x := .release s m id e t) rfl
    obtain rfl : m = .mutex := hW.frees _ hmem
    refine h (mayRelease_of_mutex ?_)
    by_contra hfree
    exact hW.exclusive.not_mem (Bool.eq_false_iff.mpr hfree) e t hmem

omit [DecidableEq S] [DecidableEq K] [Fintype S] in
/-- The end of a handler, when the choice suits it and the lock it gives back is held. -/
theorem finish_isSome {cpu : CpuState E} (elapsed : ℚ) {r : Outcome S K E σ} (hafter : 0 ≤ c.after)
    (hpos : r.noTime = true ∨ 0 < elapsed) (hheld : ∀ m id e, r.cont = .unlock m id e →
      mayUnlock cpu m id = true) (s : S) (now : ℚ) :
    (finish (K := K) s now cpu elapsed c.after r.noTime r.cont).isSome := by
  cases hcont : r.cont with
  | done => simp [finish, hpos, guard]
  | lock m id e =>
    have hsum : r.noTime = true ∨ 0 < elapsed + c.after := hpos.imp_right fun h => by linarith
    simp [finish, hafter, hsum, guard]
  | unlock m id e => simp [finish, hheld m id e hcont, hpos, guard]

/-- **A step does not fail**, if it processes one of the earliest events, no `CPU_EVENT` finds its
CPU busy, the handlers do not fail, and the choice suits. -/
theorem World.Sound.step_isSome (hW : W.Sound kind locks conf) (hP : Disciplined P kind)
    (hmutex : OnlyMutexes kind locks) (hrate : ∀ x, 0 < conf.network.transmissionRates x)
    (hhandles : W.config.Handles P conf.network G D) (hahead : W.Ahead) (hdue : W.Due c.pick)
    (hdecision : D c.decision) (hgood : ∀ s t e, W.next c.pick = some (s, t, e) → G e)
    (hsuits : ∀ s t e r, W.next c.pick = some (s, t, e) →
      P.serve s t (W.servers s).state e = some r → c.Suits r) : (W.step P conf c).isSome := by
  obtain ⟨t, tgt, hev, hfirst, hbusy⟩ := hdue
  have hmem := List.mem_of_getElem? hev
  have hnow : W.now ≤ t := hahead _ hmem
  simp only [World.step, hev, Option.bind_eq_bind, Option.bind_some, guard, if_pos (And.intro hnow
    hfirst)]
  cases tgt with
  | client k e =>
    obtain ⟨r, hr, hreach⟩ := hhandles.client (World.task_mem hmem rfl) hnow hdecision
    obtain ⟨y, hy⟩ := Option.isSome_iff_exists.mp
      (emitClientAll_isSome (hrate (.inr k)) t (hW.interfaces.2 k) hreach)
    have hr' : P.client k t c.decision (W.clients k).state e = some r := hr
    simp only [World.stepClient, hr', hy, Option.bind_eq_bind, Option.bind_some, Option.pure_def,
      Option.isSome_some]
  | server s ev =>
    obtain ⟨⟨cpu, d⟩, hcpu⟩ := Option.isSome_iff_exists.mp
      (hW.cpuProcessEvent_isSome hmutex hmem fun he => hbusy s (he ▸ rfl))
    cases d with
    | idle => simp [World.stepServer, hcpu]
    | wait => simp [World.stepServer, hcpu]
    | run e =>
      obtain ⟨x, tb, hpool, hready⟩ := World.run_ready hmem hcpu
      have hnext : W.next c.pick = some (s, t, e) := by
        simp only [World.next, hev, hcpu]
      obtain ⟨r, hr, hreach⟩ := hhandles.serve hpool hnow hready (hgood s t e hnext)
      have hr : P.serve s t (W.servers s).state e = some r := hr
      have hc := hsuits s t e r hnext hr
      obtain ⟨net, evs, hem⟩ := emitServerAll_isSome (hrate (.inl s)) t 0
        (hW.interfaces.1 s) hreach hc.length hc.draws
      have hheld : ∀ m id e', r.cont = .unlock m id e' → mayUnlock cpu m id = true := by
        intro m id e' hcont
        obtain ⟨hkind, -⟩ := hP.unlock hr hcont
        obtain rfl := hmutex.mutex hkind
        exact (hready.granted (hW.exclusive.placed x hpool) hkind).2
      obtain ⟨fin, hfin⟩ := Option.isSome_iff_exists.mp (finish_isSome (K := K)
        (0 + c.draws.sum + c.last) hc.after (by rw [zero_add]; exact hc.pos) hheld s t)
      simp only [World.stepServer, hcpu, hr, hem, hfin, Option.bind_eq_bind, Option.bind_some,
        guard, if_pos hc.last, Option.pure_def, Option.isSome_some]

end Step

end CCSim
