/-
# No assertion fails

Progress of whole simulations.  In every run of `gr` and of `grv` in which the updates of each
source are handled in the order in which they were made, no event is ever in the past, and a step of
the simulator does not fail: neither an assertion of a handler, of the CPU, of the network or of a
lock nor one about the CPU time that was used (`progress`).  What the choice of a step has to meet
is that one of the earliest events is processed and that no `CPU_EVENT` finds its CPU busy; that it
is a decision that a workload may make; and that the CPU times suit the handler.

The last is met by simulators that draw positive times (`simulations_progress`): every handler uses
CPU time, or allows that it uses none.
-/
import CCSim.Gr.Progress
import CCSim.Gr.CpuTime
import CCSim.Grv.Progress
import CCSim.Grv.CpuTime
import CCSim.Statistics
import CCSim.Gr.Coverage

namespace CCSim

variable {c : Cluster}

/-! ## 1. The start -/

/-- Delays are not negative. -/
theorem NetworkDelays.networkDelay_nonneg (d : NetworkDelays c) {x y : ServerId c ⊕ ClientId c}
    {delay : ℚ} (h : delay ∈ d.networkDelay x y) : 0 ≤ delay := by
  have hself := d.self_nonneg
  have hintra := d.intra_nonneg
  have hinter := d.inter_nonneg
  unfold NetworkDelays.networkDelay at h
  split at h <;> grind

section Start

variable {E σ κ χ : Type} {setup : Setup c E} {server : σ} {client : κ} {locks : ℕ}
  {startGst clockTick clientTick : E} {kind : E → Kind}

/-- At the start there are ticks and GST computations in the event list. -/
theorem Setup.mem_events {x : ℚ × Target (ServerId c) (ClientId c) E}
    (hx : x ∈ (setup.world server client locks startGst clockTick clientTick).events) :
    (∃ s e, x.2 = .server s (.user e)) ∨ ∃ k e, x.2 = .client k e := by
  rcases List.mem_append.mp hx with hx | hx
  · obtain ⟨s, -, hx⟩ := List.mem_flatMap.mp hx
    rcases List.mem_append.mp hx with hx | hx
    · split at hx
      · rw [List.mem_singleton.mp hx]
        exact .inl ⟨s, _, rfl⟩
      · cases hx
    · rw [List.mem_singleton.mp hx]
      exact .inl ⟨s, _, rfl⟩
  · obtain ⟨k, -, rfl⟩ := List.mem_map.mp hx
    exact .inr ⟨k.2, _, rfl⟩

/-- No CPU has sent itself anything. -/
theorem Setup.fresh (hcores : 1 ≤ c.numCores) :
    (setup.world server client locks startGst clockTick clientTick).Fresh := by
  intro s
  refine ⟨⟨hcores, rfl, rfl, fun l hl => List.eq_of_mem_replicate hl, List.forall_mem_nil _⟩, ?_⟩
  refine Multiset.eq_zero_of_forall_notMem fun x hx => ?_
  obtain ⟨hev, huser⟩ := World.mem_messages.mp hx
  rcases Setup.mem_events hev with ⟨s', e, h⟩ | ⟨k, e, h⟩
  · injection h with _ he
    exact huser e he
  · cases h

theorem Setup.ahead : (setup.world server client locks startGst clockTick clientTick).Ahead := by
  intro x hx
  rcases List.mem_append.mp hx with hx | hx
  · obtain ⟨s, -, hx⟩ := List.mem_flatMap.mp hx
    rcases List.mem_append.mp hx with hx | hx
    · split at hx
      · rw [List.mem_singleton.mp hx]
        exact setup.start_le_gstInterval
      · cases hx
    · rw [List.mem_singleton.mp hx]
      exact setup.start_le_clockInterval
  · obtain ⟨k, hk, rfl⟩ := List.mem_map.mp hx
    exact setup.start_le_clients k hk

/-- Soundness at the start: nothing has been sent, and nobody holds a lock. -/
theorem Setup.sound (hcores : 1 ≤ c.numCores) {d : NetworkDelays c}
    (hconf : setup.network.networkDelay = d.networkDelay) (hs : kind startGst = .plain)
    (ht : kind clockTick = .plain) (hc : kind clientTick = .plain) :
    (setup.world server client locks startGst clockTick clientTick).Sound kind locks
      setup.conf where
  accounts := (Setup.fresh hcores).accounts
  exclusive := Setup.exclusive hs ht hc
  frees x hx := by
    rcases Setup.mem_pool hx with ⟨s, rfl, -⟩ | ⟨s, rfl⟩ | ⟨k, rfl⟩ <;> trivial
  has s id hid := by
    show id < (List.replicate locks ({} : CpuLock E)).length
    rwa [List.length_replicate]
  interfaces := by
    have hdelay : ∀ {x y delay}, delay ∈ setup.conf.network.networkDelay x y → 0 ≤ delay := by
      intro x y delay hmem
      have hmem : delay ∈ d.networkDelay x y := hconf ▸ hmem
      exact d.networkDelay_nonneg hmem
    exact ⟨fun s y delay hmem => (zero_add delay).symm ▸ hdelay hmem,
      fun k y delay hmem => (zero_add delay).symm ▸ hdelay hmem⟩

end Start

/-! ## 2. Locks -/

/-- `gr` has its lock and one for each source of updates. -/
theorem gr_onlyMutexes (c : Cluster) : OnlyMutexes (grKind (c := c)) (1 + c.numReplicas) where
  mutex {e m id} h := by
    cases e <;> cases h <;> rfl
  lt {e m id} h := by
    have hreplica : ∀ r : Replica c, grReplicaLock r < 1 + c.numReplicas := fun r =>
      Nat.add_lt_add_left r.2 1
    have hlock : grLock < 1 + c.numReplicas := Nat.add_pos_left Nat.one_pos _
    cases e <;> cases h <;> first | exact hlock | exact hreplica _

/-- `grv` has two. -/
theorem grv_onlyMutexes (c : Cluster) : OnlyMutexes (grvKind (c := c)) 2 where
  mutex {e m id} h := by
    cases e <;> cases h <;> rfl
  lt {e m id} h := by
    cases e <;> cases h <;> decide

/-! ## 3. Every run -/

/-- What a simulation has to be set up with: at least one core, the delays that `INIT` events set,
rates that are positive, and no client twice. -/
structure Setup.Proper {E : Type} (setup : Setup c E) : Prop where
  cores : 1 ≤ c.numCores
  delays : ∃ d : NetworkDelays c, setup.network.networkDelay = d.networkDelay
  rates : ∀ x, 0 < setup.network.transmissionRates x
  clients : (setup.clients.map Prod.snd).Nodup

/-- What is chosen for a step is possible: one of the earliest events, unless it is a `CPU_EVENT`
for a busy CPU, a decision of a workload, and CPU times that suit the handler. -/
structure Choice.Possible {S K E σ κ : Type} (P : Program S K E σ κ Decision)
    (W : World S K E σ κ) (ch : Choice Decision) : Prop where
  due : W.Due ch.pick
  decision : ch.decision.Valid
  suits : ∀ s t e r, W.next ch.pick = some (s, t, e) →
    P.serve s t (W.servers s).state e = some r → ch.Suits r

section Runs

variable {ch : Choice Decision}

theorem World.Run.ahead {S K E σ κ χ : Type} [DecidableEq S] [DecidableEq K] [Fintype S]
    {P : Program S K E σ κ χ} {conf : SimConfig S K E} {C : Cond S K E σ κ}
    {W₀ W : World S K E σ κ} {h : List (Act S K E σ κ)} (hP : P.Forward) (h₀ : W₀.Ahead)
    (hr : World.Run P conf C W₀ W h) : W.Ahead := by
  induction hr with
  | nil => exact h₀
  | cons _ _ hstep => exact World.Ahead.step hP hstep

/-- A possible step does not fail, unless it is the handler of an update that finds disorder. -/
theorem gr_progress {setup : Setup c (GrEvent c)} {C : GrCond c} {W : GrWorld c}
    {h : List (GrAct c)} (hsetup : setup.Proper)
    (hr : World.Run (grProgram c) setup.conf C (grWorld setup) W h)
    (hch : ch.Possible (grProgram c) W)
    (hcond : (∀ s t e, W.next ch.pick = some (s, t, e) → ¬e.OfQueue) ∨
      ∀ v a, C v a → (grReplicating c).UpdatesInOrder v a) :
    (W.step (grProgram c) setup.conf ch).isSome := by
  obtain ⟨d, hd⟩ := hsetup.delays
  have hsound := World.Run.sound (grReplicating c).disciplined (gr_onlyMutexes c)
    (Setup.fresh hsetup.cores) (Setup.sound hsetup.cores hd rfl rfl rfl) hr
  have hahead := hr.ahead (gr_forward setup) Setup.ahead
  have hstep : ∀ {G : GrEvent c → Prop}, (∀ {x s t tb tb' e}, x ∈ W.config.pool →
      Ready s t tb x e tb' → G e → GrQueueDemands s (W.servers s).state e) →
      (∀ s t e, W.next ch.pick = some (s, t, e) → G e) →
        (W.step (grProgram c) setup.conf ch).isSome := fun hqueue hgood =>
    hsound.step_isSome (grReplicating c).disciplined (gr_onlyMutexes c) hsetup.rates
      (gr_handles hsetup.clients hd hr.config hqueue) hahead hch.due hch.decision hgood hch.suits
  rcases hcond with hnext | hC
  · refine hstep (fun {x s t tb tb' e} _ _ he => ?_) hnext
    cases e <;> first | trivial | exact absurd trivial he
  · exact hstep (G := fun _ => True)
      (fun hx hready _ => gr_queueDemands (hr.config.mono hC) hx hready)
      fun _ _ _ _ => trivial

theorem grv_progress {setup : Setup c (GrvEvent c)} {C : GrvCond c} {W : GrvWorld c}
    {h : List (GrvAct c)} (hsetup : setup.Proper)
    (hr : World.Run (grvProgram c) setup.conf C (grvWorld setup) W h)
    (hch : ch.Possible (grvProgram c) W)
    (hcond : (∀ s t e, W.next ch.pick = some (s, t, e) → ¬e.OfQueue) ∨
      ∀ v a, C v a → (grvReplicating c).UpdatesInOrder v a) :
    (W.step (grvProgram c) setup.conf ch).isSome := by
  obtain ⟨d, hd⟩ := hsetup.delays
  have hsound := World.Run.sound (grvReplicating c).disciplined (grv_onlyMutexes c)
    (Setup.fresh hsetup.cores) (Setup.sound hsetup.cores hd rfl rfl rfl) hr
  have hahead := hr.ahead (grv_forward setup) Setup.ahead
  have hstep : ∀ {G : GrvEvent c → Prop}, (∀ {x s t tb tb' e}, x ∈ W.config.pool →
      Ready s t tb x e tb' → G e → GrvQueueDemands s (W.servers s).state e) →
      (∀ s t e, W.next ch.pick = some (s, t, e) → G e) →
        (W.step (grvProgram c) setup.conf ch).isSome := fun hqueue hgood =>
    hsound.step_isSome (grvReplicating c).disciplined (grv_onlyMutexes c) hsetup.rates
      (grv_handles hsetup.clients hd hr.config hqueue) hahead hch.due hch.decision hgood hch.suits
  rcases hcond with hnext | hC
  · refine hstep (fun {x s t tb tb' e} _ _ he => ?_) hnext
    cases e <;> first | trivial | exact absurd trivial he
  · exact hstep (G := fun _ => True)
      (fun hx hready _ => grv_queueDemands (hr.config.mono hC) hx hready)
      fun _ _ _ _ => trivial

end Runs

theorem rat_tenth_nonneg : (0 : ℚ) ≤ 1 / 10 := by
  norm_num

/-- Every link between processes that are connected takes a tenth of a second. -/
def pairDelays : NetworkDelays pair where
  intraDatacenterDelay := 1 / 10
  selfDelay := 1 / 10
  interDatacenterDelay _ _ := 1 / 10
  intra_nonneg := rat_tenth_nonneg
  self_nonneg := rat_tenth_nonneg
  inter_nonneg _ _ := rat_tenth_nonneg

/-- `pairSetup` with the links that there are. -/
def linkedSetup (E : Type) : Setup pair E :=
  { pairSetup E with network := ⟨pairDelays.networkDelay, fun _ => 1⟩ }

theorem linkedSetup_proper (E : Type) : (linkedSetup E).Proper where
  cores := by decide
  delays := ⟨pairDelays, rfl⟩
  rates _ := one_pos
  clients := show [clientAt pair 0 0 0, clientAt pair 1 0 0].Nodup by decide

instance : DecidablePred Decision.Valid := fun d => by
  unfold Decision.Valid
  split <;> infer_instance

/-- The choice is possible, and what it runs is a handler of an event for which the test holds. -/
def Choice.sees {S K E σ κ : Type} (P : Program S K E σ κ Decision) (ch : Choice Decision)
    (test : E → Bool) (x : World S K E σ κ × List (Act S K E σ κ)) : Bool :=
  x.1.isDue ch.pick && decide ch.decision.Valid && (x.1.next ch.pick).any fun y => test y.2.2 &&
    (P.serve y.1 y.2.1 (x.1.servers y.1).state y.2.2).all fun r => decide (ch.Suits r)

theorem Choice.possible_of_sees {S K E σ κ : Type} {P : Program S K E σ κ Decision}
    {W : World S K E σ κ} {h : List (Act S K E σ κ)} {ch : Choice Decision} {test : E → Bool}
    (hs : ch.sees P test (W, h) = true) :
    ch.Possible P W ∧ ∃ s t e, W.next ch.pick = some (s, t, e) ∧ test e = true := by
  unfold Choice.sees at hs
  simp only [Bool.and_eq_true, Option.any_eq_true] at hs
  obtain ⟨⟨hdue, hvalid⟩, ⟨s, t, e⟩, hnext, htest, hall⟩ := hs
  refine ⟨⟨World.due_of_isDue hdue, of_decide_eq_true hvalid, ?_⟩, s, t, e, hnext, htest⟩
  intro s' t' e' r hnext' hserve
  obtain rfl := Prod.mk.inj (Option.some.inj (hnext.symm.trans hnext')) |>.1
  obtain ⟨rfl, rfl⟩ := Prod.mk.inj (Prod.mk.inj (Option.some.inj (hnext.symm.trans hnext'))).2
  rw [hserve, Option.all_some] at hall
  exact of_decide_eq_true hall

/-- The second replica handles the update of a PUT at the first one. -/
def updateChoice : Choice Decision := .steady (1 / 100) 4 0 .nothing

/-- A slice that is under way has values. -/
theorem grv_slice_values {setup : Setup c (GrvEvent c)} {C : GrvCond c} {W : GrvWorld c}
    {h : List (GrvAct c)} (hr : World.Run (grvProgram c) setup.conf C (grvWorld setup) W h)
    {pick : ℕ} {s : ServerId c} {t : ℚ} {slice : GrvSliceResponse c}
    (hnext : W.next pick = some (s, t, .sliceResponse slice)) : slice.values ≠ [] := by
  obtain ⟨x, tb, tb', hx, hready⟩ := World.next_ready hnext
  have hmail : Mail.Run (grvProgram c) (fun _ => True) (grvWorld setup).config.mail W.config.mail
      h := hr.config.mail fun _ _ => trivial
  have hreads := grv_readsKeys hmail _ (Config.mem_mail hx hready.event?) _ rfl rfl
  rintro hnil
  refine hreads ?_
  simp [grvSlices, hnil]

/-- What a simulation with seeds has to be set up with. -/
structure SeededSetup.Proper {E σ κ U : Type} (Z : SeededSetup c E σ κ U) : Prop where
  setup : Z.setup.Proper
  random : Z.random.Positive
  sizes : ({ Z.sizes with simulatedSize := Z.setup.simulatedSize } : Sizes E).Positive

/-- **Simulations go on.**  The next step of a simulation whose timing functions draw positive times
does not fail: every handler uses CPU time or says that it need not. -/
theorem simulations_progress (c : Cluster) (U : Type) (i : ℚ)
    (hwrap : c.numPartitions * (c.treeFanout + 1) < uintSize) :
    (∀ (Z : GrSeededSetup c U) (C : GrCond c) (X : GrSim c) (h : List (GrAct c)), Z.Proper →
      World.Run (grProgram c) Z.setup.conf C (grWorld Z.setup) X.world h →
        X.world.Due (Z.pick X) → (Z.decision X).Valid →
          ((∀ s t e, X.world.next (Z.pick X) = some (s, t, e) → ¬e.OfQueue) ∨
            ∀ v a, C v a → (grReplicating c).UpdatesInOrder v a) →
          ((grSimulator Z i).step X).isSome) ∧
    ∀ (Z : GrvSeededSetup c U) (C : GrvCond c) (X : GrvSim c) (h : List (GrvAct c)), Z.Proper →
      World.Run (grvProgram c) Z.setup.conf C (grvWorld Z.setup) X.world h →
        X.world.Due (Z.pick X) → (Z.decision X).Valid →
          ((∀ s t e, X.world.next (Z.pick X) = some (s, t, e) → ¬e.OfQueue) ∨
            ∀ v a, C v a → (grvReplicating c).UpdatesInOrder v a) →
          ((grvSimulator Z i).step X).isSome := by
  constructor
  · intro Z C X h hZ hr hdue hvalid hcond
    have hpick := (grSimulator Z i).plan_pick X
    refine Simulator.step_isSome
      (gr_progress hZ.setup hr ⟨?_, ?_, fun s t e r hnext hserve => ?_⟩ ?_)
    · rw [hpick]
      exact hdue
    · rw [Simulator.plan_decision]
      exact hvalid
    · rw [hpick] at hnext
      refine Simulator.plan_suits (fun _ _ _ _ _ _ h =>
        grCalls_describes (grServerProcessEvent_some h)) hZ.random hnext hserve ?_
      exact grCalls_takesTime hZ.sizes hwrap (grServerProcessEvent_some hserve)
    · rw [hpick]
      exact hcond
  · intro Z C X h hZ hr hdue hvalid hcond
    have hpick := (grvSimulator Z i).plan_pick X
    refine Simulator.step_isSome
      (grv_progress hZ.setup hr ⟨?_, ?_, fun s t e r hnext hserve => ?_⟩ ?_)
    · rw [hpick]
      exact hdue
    · rw [Simulator.plan_decision]
      exact hvalid
    · rw [hpick] at hnext
      refine Simulator.plan_suits (fun _ _ _ _ _ _ h =>
        grvCalls_describes (grvServerProcessEvent_some h)) hZ.random hnext hserve ?_
      exact grvCalls_takesTime hZ.sizes (grvServerProcessEvent_some hserve)
        fun slice he => grv_slice_values hr (he ▸ hnext)
    · rw [hpick]
      exact hcond

/-- The simulation of `linkedSetup` in which the first client PUTs one value. -/
def linkedSimulation (E σ κ : Type) : SeededSetup pair E σ κ ℚ where
  setup :=
    { linkedSetup E with
      network := ⟨pairDelays.networkDelay, fun _ => 1000⟩
      simulatedSize := fun _ => 1 }
  sizes := byteSizes E
  random :=
    { distribution := .exponential
      time := fun _ => 1 / 1000
      generator := ⟨fun u => u, fun mean u => mean * u⟩
      stream := fun _ k => if k % 2 = 0 then 1 else 2 }
  pick := firstEvent
  decision X := if X.processed.isEmpty then .put 0 7 else .nothing

theorem linkedSimulation_proper (E σ κ : Type) : (linkedSimulation E σ κ).Proper where
  setup :=
    { cores := by decide
      delays := ⟨pairDelays, rfl⟩
      rates := fun _ => show (0 : ℚ) < 1000 by norm_num
      clients := (linkedSetup_proper E).clients }
  random s t pos := by
    show (0 : ℚ) < 1 / 1000 * if pos % 2 = 0 then 1 else 2
    split <;> norm_num
  sizes := ⟨fun _ => one_pos, fun _ => one_pos, one_pos⟩

/-- What is seen of a simulation: the next choice is possible, and it runs the handler of an event
for which the test holds. -/
def Simulator.seesNext {S K E σ κ U : Type} (M : Simulator S K E σ κ Decision U)
    (test : E → Bool) (X : Sim S K E σ κ) : Bool :=
  X.world.isDue (M.pick X) && decide (M.decision X).Valid &&
    (X.world.next (M.pick X)).any fun y => test y.2.2

theorem Simulator.of_seesNext {S K E σ κ U : Type} {M : Simulator S K E σ κ Decision U}
    {test : E → Bool} {X : Sim S K E σ κ} (h : M.seesNext test X = true) :
    X.world.Due (M.pick X) ∧ (M.decision X).Valid ∧
      ∀ s t e, X.world.next (M.pick X) = some (s, t, e) → test e = true := by
  unfold Simulator.seesNext at h
  simp only [Bool.and_eq_true, Option.any_eq_true] at h
  obtain ⟨⟨hdue, hvalid⟩, y, hnext, htest⟩ := h
  refine ⟨World.due_of_isDue hdue, of_decide_eq_true hvalid, fun s t e hnext' => ?_⟩
  obtain rfl := Option.some.inj (hnext.symm.trans hnext')
  exact htest

/-- After eight events the second replica handles the update, under the lock of its source. -/
theorem simulations_progress_linked :
    (∃ X, grRun (linkedSimulation _ _ _) 0 8 = some X ∧
      ((grSimulator (linkedSimulation _ _ _) 0).step X).isSome) ∧
    ∃ X, grvRun (linkedSimulation _ _ _) 0 8 = some X ∧
      ((grvSimulator (linkedSimulation _ _ _) 0).step X).isSome := by
  have hwrap : pair.numPartitions * (pair.treeFanout + 1) < uintSize := by decide
  constructor
  · have hsees : (grRun (linkedSimulation _ _ _) 0 8).any
        ((grSimulator (linkedSimulation _ _ _) 0).seesNext fun e => !decide e.OfQueue) = true := by
      decide +kernel
    obtain ⟨X, hX, hseen⟩ := (Option.any_eq_true _ _).mp hsees
    obtain ⟨h, hrun⟩ := Simulator.run_timely (M := grSimulator (linkedSimulation _ _ _) 0)
      (fun _ _ _ _ _ _ h => grCalls_describes (grServerProcessEvent_some h))
      (linkedSimulation_proper (GrEvent pair) (GrServerState pair) (GrClientState pair)).random hX
    obtain ⟨hdue, hvalid, hnext⟩ := Simulator.of_seesNext hseen
    exact ⟨X, hX, (simulations_progress pair ℚ 0 hwrap).1 _ _ X h (linkedSimulation_proper _ _ _)
      hrun.run hdue hvalid (.inl fun s t e hn => by simpa using hnext s t e hn)⟩
  · have hsees : (grvRun (linkedSimulation _ _ _) 0 8).any
        ((grvSimulator (linkedSimulation _ _ _) 0).seesNext fun e => !decide e.OfQueue) = true := by
      decide +kernel
    obtain ⟨X, hX, hseen⟩ := (Option.any_eq_true _ _).mp hsees
    obtain ⟨h, hrun⟩ := Simulator.run_timely (M := grvSimulator (linkedSimulation _ _ _) 0)
      (fun _ _ _ _ _ _ h => grvCalls_describes (grvServerProcessEvent_some h))
      (linkedSimulation_proper (GrvEvent pair) (GrvServerState pair) (GrvClientState pair)).random
      hX
    obtain ⟨hdue, hvalid, hnext⟩ := Simulator.of_seesNext hseen
    exact ⟨X, hX, (simulations_progress pair ℚ 0 hwrap).2 _ _ X h (linkedSimulation_proper _ _ _)
      hrun.run hdue hvalid (.inl fun s t e hn => by simpa using hnext s t e hn)⟩

end CCSim
