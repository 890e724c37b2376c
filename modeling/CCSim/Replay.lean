/-
# Replaying a run of the simulation

A run can be computed from the choices made in it (`World.replay`).  Each handler call is tested
as it is made; if the test implies a condition, the result is a run under that condition
(`World.Run.replay`).  Concrete runs are stated this way: a list of choices, and what is seen at
the end.

A condition may ask which events are pending at a server.  `World.pendingAt` lists them.  The
concrete runs of this development are runs of small clusters, in which every delay is the same.
-/
import CCSim.Setup

namespace CCSim

variable {S K E σ κ χ : Type} [DecidableEq S] [DecidableEq K]

/-! ## 1. Pending events -/

/-- Everything that waits at a CPU. -/
def CpuState.itemList (cpu : CpuState E) : List (CpuListItem E) :=
  cpu.queue ++ cpu.locks.flatMap CpuLock.queue ++ cpu.rwlocks.flatMap CpuRwlock.queue

/-- The event that arrives with something in the event list, if it arrives at `s`. -/
def Target.pendingAt (s : S) : Target S K E → Option E
  | .server s' (.user e) => if s' = s then some e else none
  | _ => none

/-- The events that are waiting to be handled at `s`. -/
def World.pendingAt (W : World S K E σ κ) (s : S) : List E :=
  W.events.filterMap (fun ev => ev.2.pendingAt s) ++
    (W.servers s).cpu.itemList.filterMap fun item => match item with
      | .event e => some e
      | .lock _ _ _ => none

theorem CpuState.mem_items {cpu : CpuState E} {item : CpuListItem E} :
    item ∈ cpu.items ↔ item ∈ cpu.itemList := by
  have hsum : ∀ l : List (List (CpuListItem E)),
      item ∈ (l.map (Multiset.ofList : _ → Multiset (CpuListItem E))).sum ↔ item ∈ l.flatten := by
    intro l
    induction l with
    | nil => simp
    | cons q l ih => simp [ih]
  have h1 := hsum (cpu.locks.map CpuLock.queue)
  have h2 := hsum (cpu.rwlocks.map CpuRwlock.queue)
  rw [List.map_map] at h1 h2
  simp only [CpuState.items, CpuState.itemList, Multiset.mem_add, Multiset.mem_coe,
    List.mem_append, List.flatMap_def]
  exact or_congr (or_congr Iff.rfl h1) h2

omit [DecidableEq K] in
/-- The list is complete. -/
theorem World.mem_pendingAt [Fintype S] {W : World S K E σ κ} {s : S} {e : E}
    (h : .pending s e ∈ W.config.pool) : e ∈ W.pendingAt s := by
  rw [World.pendingAt, List.mem_append, List.mem_filterMap, List.mem_filterMap]
  rcases Multiset.mem_add.mp h with h | h
  · left
    obtain ⟨ev, hev, h⟩ := List.mem_filterMap.mp (Multiset.mem_coe.mp h)
    refine ⟨ev, hev, ?_⟩
    rcases ev with ⟨t, ⟨s', _ | _ | _ | _ | e'⟩ | ⟨k, e'⟩⟩ <;>
      simp only [Target.task, Option.some.injEq, Task.pending.injEq, reduceCtorEq] at h
    obtain ⟨rfl, rfl⟩ := h
    exact if_pos rfl
  · right
    obtain ⟨s', -, h⟩ := Multiset.mem_sum.mp h
    obtain ⟨item, hitem, h⟩ := Multiset.mem_map.mp h
    rcases item with e' | ⟨m, id, e'⟩ <;>
      simp only [CpuListItem.task, Task.pending.injEq, reduceCtorEq] at h
    obtain ⟨rfl, rfl⟩ := h
    exact ⟨_, CpuState.mem_items.mp hitem, rfl⟩

/-! ## 2. Replays -/

/-- A choice in which every CPU time is `time`, for a handler that hands over `outs` things. -/
def Choice.steady (time : ℚ) (pick outs : ℕ) (decision : χ) : Choice χ :=
  ⟨pick, List.replicate outs time, time, 0, decision⟩

/-- A test of handler calls: the world one is made in, the calls before, and the call. -/
abbrev CallTest (S K E σ κ : Type) :=
  World S K E σ κ → List (Act S K E σ κ) → Act S K E σ κ → Bool

/-- What passes the test meets the condition. -/
def Cond.TestedBy [Fintype S] (C : Cond S K E σ κ) (test : CallTest S K E σ κ) : Prop :=
  ∀ W h a, test W h a = true → C (W.config.view h) a

omit [DecidableEq S] [DecidableEq K] in
theorem Cond.tested_true [Fintype S] :
    Cond.TestedBy (fun _ _ => True : Cond S K E σ κ) fun _ _ _ => true :=
  fun _ _ _ _ => trivial

/-- The world and the handler calls after these choices, if all of them describe steps and every
handler call passes the test. -/
def World.replay (P : Program S K E σ κ χ) (conf : SimConfig S K E) (test : CallTest S K E σ κ) :
    List (Choice χ) → World S K E σ κ → List (Act S K E σ κ) →
      Option (World S K E σ κ × List (Act S K E σ κ))
  | [], W, h => some (W, h)
  | c :: cs, W, h =>
    match W.step P conf c with
    | none => none
    | some (W', none) => World.replay P conf test cs W' h
    | some (W', some a) => if test W h a then World.replay P conf test cs W' (a :: h) else none

/-- **What is replayed is a run.** -/
theorem World.Run.replay [Fintype S] {P : Program S K E σ κ χ} {conf : SimConfig S K E}
    {C : Cond S K E σ κ} {W₀ W W' : World S K E σ κ} {h h' : List (Act S K E σ κ)}
    {test : CallTest S K E σ κ} (htest : C.TestedBy test) (hrun : World.Run P conf C W₀ W h)
    {cs : List (Choice χ)} (hr : World.replay P conf test cs W h = some (W', h')) :
    World.Run P conf C W₀ W' h' := by
  induction cs generalizing W h with
  | nil =>
    cases hr
    exact hrun
  | cons c cs ih =>
    unfold World.replay at hr
    split at hr
    · cases hr
    · rename_i hstep
      exact ih (.cons c hrun hstep (by rintro _ ⟨⟩)) hr
    · rename_i a hstep
      split at hr
      · rename_i hok
        exact ih (.cons c hrun hstep (by rintro _ ⟨⟩; exact htest _ _ _ hok)) hr
      · cases hr

/-- What is seen at the end of a replay is seen at the end of a run. -/
theorem World.Run.of_replay [Fintype S] (P : Program S K E σ κ χ) (conf : SimConfig S K E)
    (W₀ : World S K E σ κ) {C : Cond S K E σ κ} {test : CallTest S K E σ κ}
    (htest : C.TestedBy test) (cs : List (Choice χ))
    (seen : World S K E σ κ × List (Act S K E σ κ) → Bool)
    (hr : (World.replay P conf test cs W₀ []).any seen = true) :
    ∃ W h, World.Run P conf C W₀ W h ∧ seen (W, h) = true := by
  cases hx : World.replay P conf test cs W₀ [] with
  | none => simp [hx] at hr
  | some x =>
    rw [hx] at hr
    exact ⟨x.1, x.2, World.Run.nil.replay htest hx, hr⟩

/-- One more step is possible, its handler call passes the test, and this is seen of the two
worlds. -/
def World.seesStep (P : Program S K E σ κ χ) (conf : SimConfig S K E) (test : CallTest S K E σ κ)
    (choice : Choice χ) (seen : World S K E σ κ → World S K E σ κ → Bool)
    (x : World S K E σ κ × List (Act S K E σ κ)) : Bool :=
  (x.1.step P conf choice).any fun y => y.2.all (test x.1 x.2) && seen x.1 y.1

/-- What is seen of the step after a replay is seen of a step after a run. -/
theorem World.Run.of_replay_step [Fintype S] (P : Program S K E σ κ χ) (conf : SimConfig S K E)
    (W₀ : World S K E σ κ) {C : Cond S K E σ κ} {test : CallTest S K E σ κ}
    (htest : C.TestedBy test) (cs : List (Choice χ)) (choice : Choice χ)
    (seen : World S K E σ κ → World S K E σ κ → Bool)
    (hr : (World.replay P conf test cs W₀ []).any (World.seesStep P conf test choice seen) =
      true) :
    ∃ W h W' a, World.Run P conf C W₀ W h ∧ W.step P conf choice = some (W', a) ∧
      (∀ x ∈ a, C (W.config.view h) x) ∧ seen W W' = true := by
  obtain ⟨W, h, hrun, hs⟩ := World.Run.of_replay P conf W₀ htest cs _ hr
  rw [World.seesStep] at hs
  cases hstep : W.step P conf choice with
  | none => simp [hstep] at hs
  | some y =>
    rw [hstep, Option.any_some, Bool.and_eq_true] at hs
    refine ⟨W, h, y.1, y.2, hrun, hstep, fun x hx => htest W h x ?_, hs.2⟩
    rw [Option.mem_def.mp hx] at hs
    exact hs.1

/-! ## 3. Small clusters -/

theorem one_lt_uintSize : 0 < 1 ∧ 1 < uintSize := by
  decide

theorem two_lt_uintSize : 0 < 2 ∧ 2 < uintSize := by
  decide

/-- A cluster of `n` replicas and `m` partitions with these clock offsets. -/
def smallCluster (n m : ℕ) (hn : 0 < n ∧ n < uintSize) (hm : 0 < m ∧ m < uintSize)
    (offset : ℕ → ℕ → ℕ) : Cluster where
  numReplicas := n
  numPartitions := m
  treeFanout := 1
  numCores := 2
  clockInterval := 1
  gstInterval := 10
  offset r p := offset r p
  numReplicas_pos := hn.1
  numPartitions_pos := hm.1
  treeFanout_pos := by decide
  numReplicas_lt := hn.2
  numPartitions_lt := hm.2
  treeFanout_lt := by decide
  clockInterval_pos := by decide
  gstInterval_pos := by decide
  offset_nonneg r p := Nat.cast_nonneg _

/-- Servers and clients by number. -/
def serverAt (c : Cluster) (r p : ℕ) : ServerId c :=
  (⟨r % c.numReplicas, Nat.mod_lt _ c.numReplicas_pos⟩, partitionForKey c p)

def clientAt (c : Cluster) (r p n : ℕ) : ClientId c :=
  ((serverAt c r p).1, (serverAt c r p).2, n)

/-- A setup in which every message takes `delay`; the clients start after time 2/5. -/
def smallSetup {c : Cluster} (E : Type) (delay : ℚ) (hc : 2 / 5 ≤ c.clockInterval)
    (hg : 2 / 5 ≤ c.gstInterval) (clients : List (ℚ × ClientId c))
    (hk : ∀ x ∈ clients, 2 / 5 ≤ x.1) : Setup c E where
  network := ⟨fun _ _ => some delay, fun _ => 1⟩
  simulatedSize _ := 0
  clients := clients
  start := 2 / 5
  start_pos := by decide +kernel
  start_le_clockInterval := hc
  start_le_gstInterval := hg
  start_le_clients := hk

/-- Choices in which every CPU time is 1/100, but for the steps in `slow`: which event is picked
and how many things its handler hands over, and what the clients decide in which step. -/
def choices (steps : List (ℕ × ℕ)) (decisions : List (ℕ × Decision))
    (slow : List (ℕ × ℚ)) : List (Choice Decision) :=
  steps.zipIdx.map fun x => Choice.steady ((slow.lookup x.2).getD (1 / 100)) x.1.1 x.1.2
    ((decisions.lookup x.2).getD .nothing)

/-- Two replicas of one partition, with equal clocks. -/
def pair : Cluster := smallCluster 2 1 (by decide) (by decide) fun _ _ => 0

/-- One replica of two partitions. -/
def duo : Cluster := smallCluster 1 2 one_lt_uintSize two_lt_uintSize fun _ _ => 0

theorem three_lt_uintSize : 0 < 3 ∧ 3 < uintSize := by
  decide

theorem rat_eleven_tenths_pos : (0 : ℚ) < 11 / 10 := by
  decide +kernel

/-- One replica of three partitions. -/
def trio : Cluster :=
  { smallCluster 1 3 one_lt_uintSize three_lt_uintSize fun _ _ => 0 with
    gstInterval := 11 / 10
    gstInterval_pos := rat_eleven_tenths_pos }

/-- Two clients of the first partition of `duo`. -/
def duoSetupOf (E : Type) : Setup duo E :=
  smallSetup E (1 / 10) (by decide +kernel) (by decide +kernel)
    [(1 / 2, clientAt duo 0 0 0), (51 / 100, clientAt duo 0 0 1)] (by decide +kernel)

/-- A client at each replica of the pair. -/
def pairSetup (E : Type) : Setup pair E :=
  smallSetup E (1 / 10) (by decide +kernel) (by decide +kernel)
    [(1 / 2, clientAt pair 0 0 0), (9 / 20, clientAt pair 1 0 0)] (by decide +kernel)

/-- Both clients are at the first replica of the pair. -/
def nearSetup (E : Type) : Setup pair E :=
  smallSetup E (1 / 10) (by decide +kernel) (by decide +kernel)
    [(4 / 5, clientAt pair 0 0 0), (81 / 100, clientAt pair 0 0 1)] (by decide +kernel)

end CCSim
