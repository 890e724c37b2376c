/-
# The simulation with a seed

In `Kernel.lean` CPU times are arbitrary.  Here they are computed as in the source: every timing
function draws from the random stream of its process, as the configured distribution says
(`timing_distribution`), and a handler uses the time of its calls (`Simulator.spend`).  Everything
else that is open in a run, the order of simultaneous events and the workloads, is decided by
functions of what has happened so far.  So a simulation with given seeds has one run
(`Simulator.run`), and it is a run of the kernel (`Simulator.run_world`).

The generator of the simulation library is a parameter: a stream from which every draw takes one
element.  The statistics are no part of the state, but the handlers take some of their statistics
with the functions that draw CPU times, and these are among their calls.
-/
import CCSim.Calls
import CCSim.Cpu.Trace

namespace CCSim

/-! ## 1. Timing distributions -/

/-- `timing_distributions`, with the parameters of the normal distribution. -/
inductive TimingDistribution
  | constant
  | normal (mu sigma : ℚ)
  | exponential
  deriving DecidableEq

/-- `Normal()` and `Expent(mean)`, as functions of one element of the random stream. -/
structure Generator (U : Type) where
  normal : U → ℚ
  expent : ℚ → U → ℚ

/-- `timing_distribution`, for the next element of the stream. -/
def timingDistribution {U : Type} (g : Generator U) (t : ℚ) (u : U) : TimingDistribution → ℚ
  | .constant => t
  | .normal mu sigma =>
    let f := g.normal u * sigma + mu
    t * if f < 1 / 2 then 1 / 2 else if 3 / 2 < f then 3 / 2 else f
  | .exponential => g.expent t u

/-- How many elements it takes. -/
def TimingDistribution.taken : TimingDistribution → ℕ
  | .constant => 0
  | .normal _ _ => 1
  | .exponential => 1

/-- What random values are made of: the `timing` object of the configuration, the generator, and the
stream of every server. -/
structure Randomness (S U : Type) where
  distribution : TimingDistribution
  time : Timing → ℚ
  generator : Generator U
  stream : S → ℕ → U

variable {S K E σ κ χ U : Type}

/-- A call of a timing function, at some position of the stream. -/
def Randomness.draw (R : Randomness S U) (s : S) (t : Timing) (pos : ℕ) : ℚ × ℕ :=
  (timingDistribution R.generator (R.time t) (R.stream s pos) R.distribution,
    pos + R.distribution.taken)

/-! ## 2. The time a handler uses -/

/-- The CPU time before each thing handed over, before the lock call or the end, and after the lock
call; and the position in the stream. -/
structure Spent where
  draws : List ℚ
  last : ℚ
  after : ℚ
  pos : ℕ

/-- The CPU time of `server_send`; `server_schedule_self` takes none. -/
def Randomness.sendTime (R : Randomness S U) (simulatedSize : E → ℕ) (s : S) (o : Out S K E)
    (pos : ℕ) : ℚ × ℕ :=
  match o with
  | .self _ _ => (0, pos)
  | _ =>
    let (x, pos) := R.draw s .serverSendTime pos
    let (y, pos) := R.draw s .serverSendPerByteTime pos
    (x + simulatedSize o.event * y, pos)

/-- What a handler spends in its calls.  `time` is the CPU time since it last handed something over
and `saved` what it was when it was last saved. -/
def Randomness.spend (R : Randomness S U) (simulatedSize : E → ℕ) (s : S) :
    List (CpuCall S K E) → ℕ → ℚ → ℚ → Spent
  | [], pos, time, _ => ⟨[], time, 0, pos⟩
  | call :: calls, pos, time, saved =>
    match call with
    | .addTime factor t =>
      let (x, pos) := R.draw s t pos
      R.spend simulatedSize s calls pos (time + factor * x) saved
    | .saveTime => R.spend simulatedSize s calls pos time time
    | .restoreTime => R.spend simulatedSize s calls pos saved saved
    | .output o =>
      let (x, pos) := R.sendTime simulatedSize s o pos
      let rest := R.spend simulatedSize s calls pos 0 saved
      { rest with draws := (time + x) :: rest.draws }
    | .lock _ _ _ | .unlock _ _ _ =>
      let (x, pos) := R.draw s .lockTime pos
      let rest := R.spend simulatedSize s calls pos 0 saved
      { rest with last := time + x, after := rest.last }
    | .allowNoTime | .storePut _ => R.spend simulatedSize s calls pos time saved

/-- How often the CPU calls `lock_time` while it processes an event, handlers apart: once for a lock
message that asks for a lock, and once for one that gives a lock back. -/
def CpuState.lockTimes (cpu : CpuState E) (ev : CpuEvent E) : ℕ :=
  (match ev with
    | .unlock _ _ _ => 1
    | _ => 0) +
  match ev.own <|> (cpu.line ev).head? with
    | some (.lock _ _ _) => 1
    | _ => 0

/-- The keys of the store after a call. -/
def putKey (keys : List ℕ) : CpuCall S K E → List ℕ
  | .storePut key => if key ∈ keys then keys else keys ++ [key]
  | _ => keys

def putKeys (keys : List ℕ) (calls : List (CpuCall S K E)) : List ℕ := calls.foldl putKey keys

theorem putKeys_append (keys : List ℕ) (calls calls' : List (CpuCall S K E)) :
    putKeys keys (calls ++ calls') = putKeys (putKeys keys calls) calls' :=
  List.foldl_append

/-! ## 3. Simulators -/

/-- A state of the simulation: the world, how many elements of its stream every server has taken, the
keys in its store, and the events that have been processed, the latest first. -/
structure Sim (S K E σ κ : Type) where
  world : World S K E σ κ
  drawn : S → ℕ
  keys : S → List ℕ
  processed : List (ℚ × Target S K E)

/-- The simulation at its start. -/
def Sim.start (W : World S K E σ κ) : Sim S K E σ κ := ⟨W, fun _ => 0, fun _ => [], []⟩

/-- What a run is determined by, besides the world it starts in.  `calls` lists the calls of a
handler, for a server, the keys in its store, the time, its state and the event. -/
structure Simulator (S K E σ κ χ U : Type) where
  program : Program S K E σ κ χ
  conf : SimConfig S K E
  random : Randomness S U
  calls : S → List ℕ → ℚ → σ → E → List (CpuCall S K E)
  pick : Sim S K E σ κ → ℕ
  decision : Sim S K E σ κ → χ

/-- How a step is going to be made: its choice, and what is left afterwards. -/
structure Plan (S χ : Type) where
  choice : Choice χ
  drawn : S → ℕ
  keys : S → List ℕ

variable [DecidableEq S] [DecidableEq K] {M : Simulator S K E σ κ χ U} {X X' : Sim S K E σ κ}

/-- The handler that the next event of the simulation runs at a server, if it does. -/
def Simulator.next (M : Simulator S K E σ κ χ U) (X : Sim S K E σ κ) : Option (S × ℚ × E) :=
  match X.world.events[M.pick X]? with
  | some (t, .server s ev) =>
    match cpuProcessEvent (X.world.servers s).cpu ev with
    | some (_, .run e) => some (s, t, e)
    | _ => none
  | _ => none

/-- The positions in the streams when that handler starts. -/
def Simulator.drawn (M : Simulator S K E σ κ χ U) (X : Sim S K E σ κ) : S → ℕ :=
  match X.world.events[M.pick X]? with
  | some (_, .server s ev) => Function.update X.drawn s
      (X.drawn s + M.random.distribution.taken * (X.world.servers s).cpu.lockTimes ev)
  | _ => X.drawn

def Simulator.plan (M : Simulator S K E σ κ χ U) (X : Sim S K E σ κ) : Plan S χ :=
  match M.next X with
  | none => ⟨⟨M.pick X, [], 0, 0, M.decision X⟩, M.drawn X, X.keys⟩
  | some (s, t, e) =>
    let calls := M.calls s (X.keys s) t (X.world.servers s).state e
    let spent := M.random.spend M.conf.simulatedSize s calls (M.drawn X s) 0 0
    { choice := ⟨M.pick X, spent.draws, spent.last, spent.after, M.decision X⟩
      drawn := Function.update (M.drawn X) s spent.pos
      keys := Function.update X.keys s (putKeys (X.keys s) calls) }

/-- One event. -/
def Simulator.step (M : Simulator S K E σ κ χ U) (X : Sim S K E σ κ) : Option (Sim S K E σ κ) := do
  let ev ← X.world.events[M.pick X]?
  let (W, _) ← X.world.step M.program M.conf (M.plan X).choice
  pure ⟨W, (M.plan X).drawn, (M.plan X).keys, ev :: X.processed⟩

/-- The state after a number of events. -/
def Simulator.run (M : Simulator S K E σ κ χ U) (X : Sim S K E σ κ) : ℕ → Option (Sim S K E σ κ)
  | 0 => some X
  | n + 1 => (M.run X n).bind M.step

omit [DecidableEq K] in
theorem Simulator.plan_pick (M : Simulator S K E σ κ χ U) (X : Sim S K E σ κ) :
    (M.plan X).choice.pick = M.pick X := by
  unfold Simulator.plan
  split <;> rfl

/-- A step is one of the kernel. -/
theorem Simulator.step_world (h : M.step X = some X') :
    ∃ ev a, X.world.events[(M.plan X).choice.pick]? = some ev ∧
      X.world.step M.program M.conf (M.plan X).choice = some (X'.world, a) ∧
      X'.processed = ev :: X.processed := by
  simp only [Simulator.step, Option.bind_eq_bind, Option.bind_eq_some_iff] at h
  obtain ⟨ev, hev, ⟨W, a⟩, hstep, h⟩ := h
  cases h
  exact ⟨ev, a, M.plan_pick X ▸ hev, hstep, rfl⟩

/-- **A run of a simulator is a run of the kernel**, with the same events. -/
theorem Simulator.run_world {W₀ : World S K E σ κ} {n : ℕ}
    (h : M.run (.start W₀) n = some X) :
    ∃ tr, World.Trace M.program M.conf (fun _ => True) W₀ X.world tr ∧
      tr.map (fun r => (r.time, r.target)) = X.processed := by
  induction n generalizing X with
  | zero =>
    cases h
    exact ⟨[], .nil, rfl⟩
  | succ n ih =>
    obtain ⟨Y, hY, hX⟩ := Option.bind_eq_some_iff.mp h
    obtain ⟨tr, htr, hprocessed⟩ := ih hY
    obtain ⟨⟨t, tgt⟩, a, hev, hstep, hcons⟩ := Simulator.step_world hX
    refine ⟨_, .cons _ htr hev hstep trivial, ?_⟩
    rw [hcons, List.map_cons, hprocessed]

/-! ## 4. Two simulators that differ in their calls -/

section Congr

variable {calls : S → List ℕ → ℚ → σ → E → List (CpuCall S K E)}

/-- The same simulator, with other calls. -/
def Simulator.withCalls (M : Simulator S K E σ κ χ U)
    (calls : S → List ℕ → ℚ → σ → E → List (CpuCall S K E)) : Simulator S K E σ κ χ U :=
  { M with calls := calls }

/-- Two lists of calls that make no difference: they take the same time, and leave the same keys and
the same position in the stream. -/
def Randomness.SameUse (R : Randomness S U) (simulatedSize : E → ℕ) (s : S) (keys : List ℕ)
    (calls calls' : List (CpuCall S K E)) : Prop :=
  (∀ pos, R.spend simulatedSize s calls pos 0 0 = R.spend simulatedSize s calls' pos 0 0) ∧
    putKeys keys calls = putKeys keys calls'

omit [DecidableEq S] [DecidableEq K] in
theorem Randomness.SameUse.of_eq {R : Randomness S U} {simulatedSize : E → ℕ} {s : S}
    {keys : List ℕ} {calls calls' : List (CpuCall S K E)} (h : calls = calls') :
    R.SameUse simulatedSize s keys calls calls' := by
  subst h
  exact ⟨fun _ => rfl, rfl⟩

/-- The next handler would make no difference with the other calls. -/
def Simulator.Agrees (M : Simulator S K E σ κ χ U)
    (calls : S → List ℕ → ℚ → σ → E → List (CpuCall S K E)) (X : Sim S K E σ κ) : Prop :=
  ∀ s t e, M.next X = some (s, t, e) →
    M.random.SameUse M.conf.simulatedSize s (X.keys s)
      (M.calls s (X.keys s) t (X.world.servers s).state e)
      (calls s (X.keys s) t (X.world.servers s).state e)

theorem Simulator.Agrees.step (h : M.Agrees calls X) : M.step X = (M.withCalls calls).step X := by
  have hplan : M.plan X = (M.withCalls calls).plan X := by
    have hnext : (M.withCalls calls).next X = M.next X := rfl
    have hdrawn : (M.withCalls calls).drawn X = M.drawn X := rfl
    unfold Simulator.plan
    rw [hnext, hdrawn]
    split
    · rfl
    · rename_i s t e hsome
      obtain ⟨hspend, hkeys⟩ := h s t e hsome
      dsimp only
      rw [hspend, hkeys]
      rfl
  unfold Simulator.step
  rw [hplan]
  rfl

/-- **As long as the calls make no difference, the runs are the same.** -/
theorem Simulator.run_congr {n : ℕ}
    (h : ∀ k < n, ∀ Y, M.run X k = some Y → M.Agrees calls Y) :
    M.run X n = (M.withCalls calls).run X n := by
  induction n with
  | zero => rfl
  | succ n ih =>
    rw [Simulator.run, Simulator.run, ← ih fun k hk => h k (hk.trans n.lt_succ_self)]
    cases hY : M.run X n with
    | none => rfl
    | some Y => exact (h n n.lt_succ_self Y hY).step

end Congr

/-! ## 5. Calls that leave no trace -/

section Walk

omit [DecidableEq S] [DecidableEq K]

variable {R : Randomness S U} {simulatedSize : E → ℕ} {s : S} {calls calls' : List (CpuCall S K E)}

/-- If the time is not restored, it does not matter what was saved. -/
theorem Randomness.spend_saved (h : ∀ a ∈ calls, a ≠ .restoreTime) (pos : ℕ) (time a b : ℚ) :
    R.spend simulatedSize s calls pos time a = R.spend simulatedSize s calls pos time b := by
  induction calls generalizing pos time with
  | nil => rfl
  | cons call calls ih =>
    obtain ⟨hcall, hrest⟩ := List.forall_mem_cons.mp h
    cases call with
    | addTime factor t => exact ih hrest _ _
    | saveTime => rfl
    | restoreTime => exact absurd rfl hcall
    | allowNoTime => exact ih hrest _ _
    | storePut key => exact ih hrest _ _
    | output o =>
      unfold Randomness.spend
      dsimp only
      rw [ih hrest]
    | lock m id e =>
      unfold Randomness.spend
      dsimp only
      rw [ih hrest]
    | unlock m id e =>
      unfold Randomness.spend
      dsimp only
      rw [ih hrest]

/-- Calls that come first make no difference later. -/
theorem Randomness.spend_append_congr (pre : List (CpuCall S K E))
    (h : ∀ pos time saved, R.spend simulatedSize s calls pos time saved =
      R.spend simulatedSize s calls' pos time saved) (pos : ℕ) (time saved : ℚ) :
    R.spend simulatedSize s (pre ++ calls) pos time saved =
      R.spend simulatedSize s (pre ++ calls') pos time saved := by
  induction pre generalizing pos time saved with
  | nil => exact h pos time saved
  | cons call pre ih =>
    rw [List.cons_append, List.cons_append]
    unfold Randomness.spend
    cases call <;> dsimp only <;> rw [ih]

/-- What a walk over the store calls. -/
def IsWalk (walk : List (CpuCall S K E)) : Prop := ∀ a ∈ walk, a = .addTime 1 .isValueVisibleTime

/-- The time of a walk is taken back.  What is left is the position in the stream, unless no random
values are taken or the walk is empty. -/
theorem Randomness.spend_walk {walk : List (CpuCall S K E)} (hwalk : IsWalk walk)
    (h : R.distribution = .constant ∨ walk = []) (hcalls : ∀ a ∈ calls, a ≠ .restoreTime)
    (pos : ℕ) (time saved : ℚ) :
    R.spend simulatedSize s (.saveTime :: walk ++ .restoreTime :: calls) pos time saved =
      R.spend simulatedSize s calls pos time saved := by
  have hspend : ∀ time', R.spend simulatedSize s (walk ++ .restoreTime :: calls) pos time' time =
      R.spend simulatedSize s calls pos time time := by
    rcases h with hconstant | rfl
    · induction walk with
      | nil => intro _; rfl
      | cons call walk ih =>
        obtain ⟨rfl, htail⟩ := List.forall_mem_cons.mp hwalk
        intro time'
        have hpos : (R.draw s .isValueVisibleTime pos).2 = pos := by
          unfold Randomness.draw
          rw [hconstant]
          rfl
        rw [List.cons_append, Randomness.spend]
        dsimp only
        rw [hpos]
        exact ih htail _
    · intro _; rfl
  exact (hspend time).trans (spend_saved hcalls pos time _ _)

theorem putKeys_walk {walk : List (CpuCall S K E)} (hwalk : IsWalk walk) (keys : List ℕ) :
    putKeys keys (.saveTime :: walk ++ .restoreTime :: calls) = putKeys keys calls := by
  have hfold : putKeys keys walk = keys := by
    unfold putKeys
    induction walk with
    | nil => rfl
    | cons call walk ih =>
      obtain ⟨rfl, htail⟩ := List.forall_mem_cons.mp hwalk
      exact ih htail
  have hsplit := putKeys_append keys (.saveTime :: walk) (.restoreTime :: calls)
  exact hsplit.trans (congrArg (fun keys => putKeys keys calls) hfold)

/-- Calls that depend on `ignore_initial_seconds` in one place only: at time `t` there is a walk, if
`t` is not before it. -/
def WalksAt (t : ℚ) (walk : List (CpuCall S K E)) (calls : ℚ → List (CpuCall S K E)) : Prop :=
  ∃ pre post, (∀ a ∈ post, a ≠ .restoreTime) ∧ ∀ i, calls i =
    pre ++ if t < i then post else .saveTime :: walk ++ .restoreTime :: post

/-- Two thresholds make no difference to such calls if they are on the same side of `t`, if no random
values are taken, or if there is nothing to walk over. -/
theorem WalksAt.sameUse {t i j : ℚ} {walk : List (CpuCall S K E)} {calls : ℚ → List (CpuCall S K E)}
    (h : WalksAt t walk calls) (hwalk : IsWalk walk)
    (hsame : R.distribution = .constant ∨ (t < i ↔ t < j) ∨ walk = []) (keys : List ℕ) :
    R.SameUse simulatedSize s keys (calls i) (calls j) := by
  obtain ⟨pre, post, hpost, hcalls⟩ := h
  rw [hcalls, hcalls]
  by_cases hside : t < i ↔ t < j
  · simp only [hside]
    exact .of_eq rfl
  · have hnone : R.distribution = .constant ∨ walk = [] := by
      rcases hsame with hconstant | hsame | hempty
      · exact .inl hconstant
      · exact absurd hsame hside
      · exact .inr hempty
    -- with and without the walk it is the same
    have hspend : ∀ pos, R.spend simulatedSize s
        (pre ++ (.saveTime :: walk ++ .restoreTime :: post)) pos 0 0 =
          R.spend simulatedSize s (pre ++ post) pos 0 0 := fun pos =>
      Randomness.spend_append_congr pre (Randomness.spend_walk hwalk hnone hpost) pos 0 0
    have hkeys : putKeys keys (pre ++ (.saveTime :: walk ++ .restoreTime :: post)) =
        putKeys keys (pre ++ post) := by
      rw [putKeys_append, putKeys_append keys pre post]
      exact putKeys_walk hwalk _
    by_cases hi : t < i
    · have hj : ¬t < j := fun hj => hside (iff_of_true hi hj)
      rw [if_pos hi, if_neg hj]
      exact ⟨fun pos => (hspend pos).symm, hkeys.symm⟩
    · have hj : t < j := by
        by_contra hj
        exact hside (iff_of_false hi hj)
      rw [if_neg hi, if_pos hj]
      exact ⟨hspend, hkeys⟩

end Walk

end CCSim
