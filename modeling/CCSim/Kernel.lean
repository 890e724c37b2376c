/-
# The simulation kernel: logical processes, the network and the event list

Servers and clients are logical processes of a discrete-event simulation.  The kernel always
processes an event with the smallest time stamp; which one, when several share it, is not
specified, so a step takes the choice as an argument.  A server's event goes through its CPU
(`Cpu.lean`), which may run a handler; a client's event is handled at once.

What a handler hands over is scheduled here.  A message goes through the network interface of
its sender (`network.c`): the interface is busy for the transmission time, and the message
arrives after the propagation delay.  An event a server schedules for itself comes back after
its delay.  Either way the CPU time used so far counts (`server_send`, `server_schedule_self`).
CPU times are random in the source, so every step also takes the times drawn as an argument;
`Seeded.lean` computes them.

A world after a step is the result of a function of the choice (`World.step`), so that a run of
the simulator can be computed; `World.Run` is the relation all claims are about.  `none` is a
failed assertion, or a choice that does not describe a step.
-/
import CCSim.Cpu
import Mathlib.Algebra.BigOperators.Group.Finset.Basic
import Mathlib.Data.Fintype.Basic

namespace CCSim

/-! ## 1. The network -/

/-- `network_config`: the propagation delays, `none` being `DISCONNECTED`, and the rates. -/
structure NetworkConfig (N : Type) where
  networkDelay : N → N → Option ℚ
  transmissionRates : N → ℚ

/-- `network_state`, less its statistics. -/
structure NetworkState (N : Type) where
  busyUntil : ℚ := 0
  lastReceptionTime : N → ℚ := fun _ => 0

/-- `network_send`: the new state of the interface, and when the message arrives. -/
def networkSend {N : Type} [DecidableEq N] (conf : NetworkConfig N) (state : NetworkState N)
    (fromLpid toLpid : N) (now : ℚ) (simulatedSize : ℕ) : Option (NetworkState N × ℚ) := do
  let propagationTime ← conf.networkDelay fromLpid toLpid
  guard (0 ≤ propagationTime)
  let transmissionRate := conf.transmissionRates fromLpid
  guard (0 < transmissionRate)
  let transmissionTime := simulatedSize / transmissionRate
  let busyUntil := (if state.busyUntil < now then now else state.busyUntil) + transmissionTime
  let when_ := busyUntil + propagationTime
  guard (state.lastReceptionTime toLpid ≤ when_)
  pure (⟨busyUntil, Function.update state.lastReceptionTime toLpid when_⟩, when_)

/-! ## 2. Worlds -/

/-- The logical process of a server. -/
structure ServerLp (S K E σ : Type) where
  state : σ
  cpu : CpuState E
  network : NetworkState (S ⊕ K) := {}

/-- The logical process of a client. -/
structure ClientLp (S K κ : Type) where
  state : κ
  network : NetworkState (S ⊕ K) := {}

/-- Whom an event is for. -/
inductive Target (S K E : Type)
  | server (s : S) (e : CpuEvent E)
  | client (k : K) (e : E)
  deriving DecidableEq

/-- The state of the whole simulation. -/
structure World (S K E σ κ : Type) where
  now : ℚ
  servers : S → ServerLp S K E σ
  clients : K → ClientLp S K κ
  events : List (ℚ × Target S K E)

/-- What is fixed during a simulation. -/
structure SimConfig (S K E : Type) where
  network : NetworkConfig (S ⊕ K)
  simulatedSize : E → ℕ

/-- What is not determined in a step: which event of the smallest time is processed, the CPU
time that passes before each thing handed over, before the handler ends, and after it has asked
for a lock; and the decision of a client's workload. -/
structure Choice (χ : Type) where
  pick : ℕ
  draws : List ℚ
  last : ℚ
  after : ℚ
  decision : χ

variable {S K E σ κ χ : Type} [DecidableEq S] [DecidableEq K]

/-! ## 3. What a handler hands over -/

/-- Something a server hands over at time `time`. -/
def emitServer (conf : SimConfig S K E) (s : S) (net : NetworkState (S ⊕ K)) (time : ℚ) :
    Out S K E → Option (NetworkState (S ⊕ K) × ℚ × Target S K E)
  | .toServer s' e => do
    let (net, when_) ← networkSend conf.network net (.inl s) (.inl s') time (conf.simulatedSize e)
    pure (net, when_, .server s' (.user e))
  | .toClient k e => do
    let (net, when_) ← networkSend conf.network net (.inl s) (.inr k) time (conf.simulatedSize e)
    pure (net, when_, .client k e)
  | .self delay e => some (net, time + delay, .server s (.user e))

/-- Everything a server hands over in one handler call; `draws` are the CPU times in between.
Returns the elapsed time as well. -/
def emitServerAll (conf : SimConfig S K E) (s : S) (now : ℚ) :
    NetworkState (S ⊕ K) → ℚ → List (Out S K E) → List ℚ →
      Option (NetworkState (S ⊕ K) × ℚ × List (ℚ × Target S K E))
  | net, elapsed, [], [] => some (net, elapsed, [])
  | net, elapsed, o :: outs, d :: draws => do
    guard (0 ≤ d)
    let (net, ev) ← emitServer conf s net (now + (elapsed + d)) o
    let (net, elapsed, evs) ← emitServerAll conf s now net (elapsed + d) outs draws
    pure (net, elapsed, ev :: evs)
  | _, _, _, _ => none

/-- Something a client hands over. -/
def emitClient (conf : SimConfig S K E) (k : K) (net : NetworkState (S ⊕ K)) (now : ℚ) :
    Out S K E → Option (NetworkState (S ⊕ K) × ℚ × Target S K E)
  | .toServer s e => do
    let (net, when_) ← networkSend conf.network net (.inr k) (.inl s) now (conf.simulatedSize e)
    pure (net, when_, .server s (.user e))
  | .toClient k' e => do
    let (net, when_) ← networkSend conf.network net (.inr k) (.inr k') now (conf.simulatedSize e)
    pure (net, when_, .client k' e)
  | .self delay e => some (net, now + delay, .client k e)

/-- Everything a client hands over in one handler call. -/
def emitClientAll (conf : SimConfig S K E) (k : K) (now : ℚ) :
    NetworkState (S ⊕ K) → List (Out S K E) →
      Option (NetworkState (S ⊕ K) × List (ℚ × Target S K E))
  | net, [] => some (net, [])
  | net, o :: outs => do
    let (net, ev) ← emitClient conf k net now o
    let (net, evs) ← emitClientAll conf k now net outs
    pure (net, ev :: evs)

/-- The assertion in `cpu_lock_unlock` and `cpu_rwlock_write_unlock`: the lock is held. -/
def mayUnlock (cpu : CpuState E) : Mode → ℕ → Bool
  | .mutex, id => match cpu.locks[id]? with
    | some l => l.locked
    | none => false
  | .read, _ => true
  | .write, id => match cpu.rwlocks[id]? with
    | some l => l.writeLocked
    | none => false

/-- The end of `cpu_process`: the event that frees the core, or the lock message that keeps it.
A handler that asked for a lock may still use CPU time after it. -/
def finish (s : S) (now : ℚ) (cpu : CpuState E) (elapsed after : ℚ) (noTime : Bool) :
    Cont E → Option (ℚ × Target S K E)
  | .done => do
    guard (noTime ∨ 0 < elapsed)
    pure (now + elapsed, .server s .freeCore)
  | .lock m id e => do
    guard (0 ≤ after ∧ (noTime ∨ 0 < elapsed + after))
    pure (now + elapsed, .server s (.lock m id e))
  | .unlock m id e => do
    guard (mayUnlock cpu m id ∧ (noTime ∨ 0 < elapsed))
    pure (now + elapsed, .server s (.unlock m id e))

/-! ## 4. Steps and runs -/

/-- The world with one server's process replaced and new events added. -/
def World.setServer (W : World S K E σ κ) (s : S) (lp : ServerLp S K E σ)
    (events : List (ℚ × Target S K E)) : World S K E σ κ :=
  { W with servers := Function.update W.servers s lp, events := W.events ++ events }

def World.setClient (W : World S K E σ κ) (k : K) (lp : ClientLp S K κ)
    (events : List (ℚ × Target S K E)) : World S K E σ κ :=
  { W with clients := Function.update W.clients k lp, events := W.events ++ events }

/-- A server processes an event of its CPU. -/
def World.stepServer (P : Program S K E σ κ χ) (conf : SimConfig S K E) (c : Choice χ)
    (W : World S K E σ κ) (s : S) (ev : CpuEvent E) :
    Option (World S K E σ κ × Option (Act S K E σ κ)) := do
  let lp := W.servers s
  let (cpu, d) ← cpuProcessEvent lp.cpu ev
  match d with
  | .idle => pure (W.setServer s { lp with cpu := cpu } [], none)
  | .wait => pure (W.setServer s { lp with cpu := cpu } [(W.now, .server s .event)], none)
  | .run e =>
    let r ← P.serve s W.now lp.state e
    let (net, elapsed, evs) ← emitServerAll conf s W.now lp.network 0 r.outs c.draws
    guard (0 ≤ c.last)
    let ev ← finish s W.now cpu (elapsed + c.last) c.after r.noTime r.cont
    pure (W.setServer s ⟨r.state, cpu, net⟩ (evs ++ [ev]),
      some (.server s W.now e lp.state r))

/-- A client processes an event. -/
def World.stepClient (P : Program S K E σ κ χ) (conf : SimConfig S K E) (c : Choice χ)
    (W : World S K E σ κ) (k : K) (e : E) :
    Option (World S K E σ κ × Option (Act S K E σ κ)) := do
  let lp := W.clients k
  let r ← P.client k W.now c.decision lp.state e
  let (net, evs) ← emitClientAll conf k W.now lp.network r.2
  pure (W.setClient k ⟨r.1, net⟩ evs, some (.client k W.now e lp.state r))

/-- One event of the simulation. -/
def World.step (P : Program S K E σ κ χ) (conf : SimConfig S K E) (c : Choice χ)
    (W : World S K E σ κ) : Option (World S K E σ κ × Option (Act S K E σ κ)) := do
  let (t, target) ← W.events[c.pick]?
  guard (W.now ≤ t ∧ ∀ ev ∈ W.events, t ≤ ev.1)
  let W := { W with now := t, events := W.events.eraseIdx c.pick }
  match target with
  | .server s ev => W.stepServer P conf c s ev
  | .client k e => W.stepClient P conf c k e

/-- The task an event of the event list stands for, if any. -/
def Target.task (t : ℚ) : Target S K E → Option (Task S K E)
  | .server _ .freeCore => none
  | .server _ .event => none
  | .server s (.lock m id e) => some (.request s m id e)
  | .server s (.unlock m id e) => some (.release s m id e t)
  | .server s (.user e) => some (.pending s e)
  | .client k e => some (.client k e)

/-- The tasks among some events of the event list. -/
def eventTasks (evs : List (ℚ × Target S K E)) : Multiset (Task S K E) :=
  (evs.filterMap fun ev => ev.2.task ev.1 : List (Task S K E))

/-- The task something in a queue of `s` stands for. -/
def CpuListItem.task (s : S) : CpuListItem E → Task S K E
  | .event e => .pending s e
  | .lock m id e => .request s m id e

/-- What a world looks like when nothing is known about when things happen: all the work that
waits in the event list, the CPU queues and the lock queues is one pool. -/
def World.config [Fintype S] (W : World S K E σ κ) : Config S K E σ κ where
  now := W.now
  server s := (W.servers s).state
  client k := (W.clients k).state
  locks s := (W.servers s).cpu.table
  pool := eventTasks W.events + ∑ s, (W.servers s).cpu.items.map (CpuListItem.task s)

/-- `W.Run`: the simulation went from `W₀` to `W` with the handler calls `h`, the latest first,
each of which met the condition `C`. -/
inductive World.Run [Fintype S] (P : Program S K E σ κ χ) (conf : SimConfig S K E)
    (C : Cond S K E σ κ) (W₀ : World S K E σ κ) :
    World S K E σ κ → List (Act S K E σ κ) → Prop
  | nil : World.Run P conf C W₀ W₀ []
  | cons {W W' : World S K E σ κ} {h : List (Act S K E σ κ)} {a : Option (Act S K E σ κ)}
      (c : Choice χ) (hrun : World.Run P conf C W₀ W h)
      (hstep : W.step P conf c = some (W', a)) (hc : ∀ x ∈ a, C (W.config.view h) x) :
      World.Run P conf C W₀ W' (a.toList ++ h)

end CCSim
