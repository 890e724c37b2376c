/-
# Chains: which locks a piece of work holds

A handler that asks for a lock goes on in a later event, and the event says nothing of the locks
it runs with.  To speak of the holder of a lock, every event here carries the locks its chain of
handlers holds (`Chained`): an event that arrives starts a chain with none, a lock message adds
the lock for the event it carries, an unlock message takes it away (`Program.chained`).

The locks carried along are never looked at: forgetting them turns a step of the chained program
into the same step of the program (`World.step_map`), so every trace of the program comes from
one of the chained program (`World.Trace.chained`).
-/
import CCSim.Cpu.Cores

namespace CCSim

/-! ## 1. Renaming the events of everything -/

section Map

variable {S K E E' σ κ χ : Type}

def CpuListItem.map (f : E → E') : CpuListItem E → CpuListItem E'
  | .event e => .event (f e)
  | .lock m id e => .lock m id (f e)

def CpuLock.map (f : E → E') (l : CpuLock E) : CpuLock E' := ⟨l.locked, l.queue.map (.map f)⟩

def CpuRwlock.map (f : E → E') (l : CpuRwlock E) : CpuRwlock E' :=
  ⟨l.counter, l.writeLocked, l.queue.map (.map f)⟩

def CpuState.map (f : E → E') (cpu : CpuState E) : CpuState E' where
  queue := cpu.queue.map (.map f)
  cores := cpu.cores
  busyCores := cpu.busyCores
  locks := cpu.locks.map (.map f)
  rwlocks := cpu.rwlocks.map (.map f)

def CpuEvent.map (f : E → E') : CpuEvent E → CpuEvent E'
  | .freeCore => .freeCore
  | .event => .event
  | .lock m id e => .lock m id (f e)
  | .unlock m id e => .unlock m id (e.map f)
  | .user e => .user (f e)

def Dispatch.map (f : E → E') : Dispatch E → Dispatch E'
  | .idle => .idle
  | .wait => .wait
  | .run e => .run (f e)

def Out.map (f : E → E') : Out S K E → Out S K E'
  | .toServer s e => .toServer s (f e)
  | .toClient k e => .toClient k (f e)
  | .self delay e => .self delay (f e)

def Cont.map (f : E → E') : Cont E → Cont E'
  | .done => .done
  | .lock m id e => .lock m id (f e)
  | .unlock m id e => .unlock m id (e.map f)

def Outcome.map (f : E → E') (r : Outcome S K E σ) : Outcome S K E' σ :=
  ⟨r.state, r.outs.map (.map f), r.noTime, r.cont.map f⟩

def Act.map (f : E → E') : Act S K E σ κ → Act S K E' σ κ
  | .server s t e st r => .server s t (f e) st (r.map f)
  | .client k t e st r => .client k t (f e) st (r.1, r.2.map (.map f))

def Target.map (f : E → E') : Target S K E → Target S K E'
  | .server s ev => .server s (ev.map f)
  | .client k e => .client k (f e)

def World.map (f : E → E') (W : World S K E σ κ) : World S K E' σ κ where
  now := W.now
  servers s := ⟨(W.servers s).state, (W.servers s).cpu.map f, (W.servers s).network⟩
  clients k := ⟨(W.clients k).state, (W.clients k).network⟩
  events := W.events.map (Prod.map id (.map f))

def Record.map (f : E → E') (r : Record S K E σ κ) : Record S K E' σ κ :=
  ⟨r.before.map f, r.time, r.target.map f, r.act.map (.map f)⟩

/-! ## 2. The CPU does not look at events -/

variable (f : E → E')

theorem cpuBusyCoresDec_map (cpu : CpuState E) :
    cpuBusyCoresDec (cpu.map f) = (cpuBusyCoresDec cpu).map (.map f) := by
  unfold cpuBusyCoresDec
  split <;> rename_i h
  · rw [if_pos (show 0 < cpu.busyCores from h)]; rfl
  · rw [if_neg (show ¬0 < cpu.busyCores from h)]; rfl

theorem cpuBusyCoresInc_map (cpu : CpuState E) :
    cpuBusyCoresInc (cpu.map f) = (cpuBusyCoresInc cpu).map (.map f) := by
  unfold cpuBusyCoresInc
  split <;> rename_i h
  · rw [if_pos (show cpu.busyCores < cpu.cores from h)]; rfl
  · rw [if_neg (show ¬cpu.busyCores < cpu.cores from h)]; rfl

theorem cpuRun_map (cpu : CpuState E) (e : E) :
    cpuRun (cpu.map f) (f e) = (cpuRun cpu e).map (Prod.map (.map f) (.map f)) := by
  rw [cpuRun, cpuRun, cpuBusyCoresInc_map, Option.map_map, Option.map_map]
  rfl

theorem wakeFirst_map (cpu : CpuState E) (w : List (CpuListItem E)) :
    wakeFirst (cpu.map f) (w.map (.map f)) = (wakeFirst cpu w).map f := by
  cases w <;> rfl

@[simp] theorem locks_map (cpu : CpuState E) (id : ℕ) :
    (cpu.map f).locks[id]? = (cpu.locks[id]?).map (.map f) := List.getElem?_map

@[simp] theorem rwlocks_map (cpu : CpuState E) (id : ℕ) :
    (cpu.map f).rwlocks[id]? = (cpu.rwlocks[id]?).map (.map f) := List.getElem?_map

theorem setLock_map (cpu : CpuState E) (id : ℕ) (l : CpuLock E) :
    ({ cpu with locks := cpu.locks.set id l } : CpuState E).map f =
      { cpu.map f with locks := (cpu.map f).locks.set id (l.map f) } := by
  simp [CpuState.map, List.map_set]

theorem setRwlock_map (cpu : CpuState E) (id : ℕ) (l : CpuRwlock E) :
    ({ cpu with rwlocks := cpu.rwlocks.set id l } : CpuState E).map f =
      { cpu.map f with rwlocks := (cpu.map f).rwlocks.set id (l.map f) } := by
  simp [CpuState.map, List.map_set]

theorem onLock_map (cpu : CpuState E) (m : Mode) (id : ℕ) (e : E) :
    onLock (cpu.map f) m id (f e) = (onLock cpu m id e).map (Prod.map (.map f) (.map f)) := by
  cases m with
  | mutex =>
    simp only [onLock, onLockLock, cpuBusyCoresDec_map, Option.bind_eq_bind]
    cases cpuBusyCoresDec cpu with
    | none => rfl
    | some c =>
      simp only [Option.map_some, Option.bind_some, locks_map]
      cases c.locks[id]? with
      | none => rfl
      | some l =>
        simp only [Option.map_some, Option.bind_some, CpuLock.map]
        split
        · simp [setLock_map, CpuLock.map, CpuListItem.map, Dispatch.map]
        · rw [← cpuRun_map, setLock_map]
          rfl
  | read =>
    simp only [onLock, onRwlockReadLock, cpuBusyCoresDec_map, Option.bind_eq_bind]
    cases cpuBusyCoresDec cpu with
    | none => rfl
    | some c =>
      simp only [Option.map_some, Option.bind_some, rwlocks_map]
      cases c.rwlocks[id]? with
      | none => rfl
      | some l =>
        simp only [Option.map_some, Option.bind_some, CpuRwlock.map]
        split
        · simp [setRwlock_map, CpuRwlock.map, CpuListItem.map, Dispatch.map]
        · rw [← cpuRun_map, setRwlock_map]
          rfl
  | write =>
    simp only [onLock, onRwlockWriteLock, cpuBusyCoresDec_map, Option.bind_eq_bind]
    cases cpuBusyCoresDec cpu with
    | none => rfl
    | some c =>
      simp only [Option.map_some, Option.bind_some, rwlocks_map]
      cases c.rwlocks[id]? with
      | none => rfl
      | some l =>
        simp only [Option.map_some, Option.bind_some, CpuRwlock.map]
        split
        · simp [setRwlock_map, CpuRwlock.map, CpuListItem.map, Dispatch.map]
        · rw [← cpuRun_map, setRwlock_map]
          rfl

theorem cpuProcessNextInQueue_map (cpu : CpuState E) :
    cpuProcessNextInQueue (cpu.map f) =
      (cpuProcessNextInQueue cpu).map (Prod.map (.map f) (.map f)) := by
  rcases cpu with ⟨_ | ⟨x, q⟩, cores, busy, locks, rwlocks⟩
  · rfl
  · cases x with
    | event e => exact cpuRun_map f ⟨q, cores, busy, locks, rwlocks⟩ e
    | lock m id e =>
      have h := cpuBusyCoresInc_map f ⟨q, cores, busy, locks, rwlocks⟩
      simp only [CpuState.map] at h
      simp only [cpuProcessNextInQueue, CpuState.map, List.map_cons, CpuListItem.map, cpuProcess,
        h, Option.bind_eq_bind]
      cases cpuBusyCoresInc (⟨q, cores, busy, locks, rwlocks⟩ : CpuState E) with
      | none => rfl
      | some c => exact onLock_map f c m id e

theorem cpuContinue_map (cpu : CpuState E) (e : Option E) :
    cpuContinue (cpu.map f) (e.map f) =
      (cpuContinue cpu e).map (Prod.map (.map f) (.map f)) := by
  cases e with
  | none => exact cpuProcessNextInQueue_map f cpu
  | some e => exact cpuRun_map f cpu e

theorem onUnlock_map (cpu : CpuState E) (m : Mode) (id : ℕ) (e : Option E) :
    onUnlock (cpu.map f) m id (e.map f) =
      (onUnlock cpu m id e).map (Prod.map (.map f) (.map f)) := by
  cases m with
  | mutex =>
    simp only [onUnlock, onLockUnlock, cpuBusyCoresDec_map, Option.bind_eq_bind]
    cases cpuBusyCoresDec cpu with
    | none => rfl
    | some c =>
      simp only [Option.map_some, Option.bind_some, locks_map]
      cases c.locks[id]? with
      | none => rfl
      | some l =>
        simp only [Option.map_some, Option.bind_some, CpuLock.map]
        by_cases h : l.locked = true
        · simp only [h, guard_true, Option.pure_def, Option.bind_some, ← cpuContinue_map,
            ← wakeFirst_map, setLock_map, CpuLock.map, List.map_tail]
        · simp [h, guard_false]
  | read =>
    simp only [onUnlock, onRwlockReadUnlock, cpuBusyCoresDec_map, Option.bind_eq_bind]
    cases cpuBusyCoresDec cpu with
    | none => rfl
    | some c =>
      simp only [Option.map_some, Option.bind_some, rwlocks_map]
      cases c.rwlocks[id]? with
      | none => rfl
      | some l =>
        simp only [Option.map_some, Option.bind_some, CpuRwlock.map]
        by_cases h : 0 < l.counter
        · simp only [h, guard_true, Option.pure_def, Option.bind_some]
          split
          · by_cases h : l.writeLocked = true
            · simp only [h, guard_true, Option.pure_def, Option.bind_some, ← cpuContinue_map,
                ← wakeFirst_map, setRwlock_map, CpuRwlock.map, List.map_tail]
            · simp [h, guard_false]
          · simp only [← cpuContinue_map, setRwlock_map, CpuRwlock.map]
        · simp [h, guard_false]
  | write =>
    simp only [onUnlock, onRwlockWriteUnlock, cpuBusyCoresDec_map, Option.bind_eq_bind]
    cases cpuBusyCoresDec cpu with
    | none => rfl
    | some c =>
      simp only [Option.map_some, Option.bind_some, rwlocks_map]
      cases c.rwlocks[id]? with
      | none => rfl
      | some l =>
        simp only [Option.map_some, Option.bind_some, CpuRwlock.map, ne_eq, List.map_eq_nil_iff]
        by_cases h : l.counter = 0 ∨ ¬l.queue = []
        · by_cases h' : l.writeLocked = true
          · simp only [h, h', guard_true, Option.pure_def, Option.bind_some, ← cpuContinue_map,
              ← wakeFirst_map, setRwlock_map, CpuRwlock.map, List.map_tail]
          · simp [h, h', guard_false]
        · simp [h, guard_false]

/-- **The CPU does not look at events.** -/
theorem cpuProcessEvent_map (cpu : CpuState E) (ev : CpuEvent E) :
    cpuProcessEvent (cpu.map f) (ev.map f) =
      (cpuProcessEvent cpu ev).map (Prod.map (.map f) (.map f)) := by
  cases ev with
  | freeCore =>
    simp only [cpuProcessEvent, CpuEvent.map, cpuBusyCoresDec_map, Option.bind_eq_bind]
    cases cpuBusyCoresDec cpu with
    | none => rfl
    | some c => exact cpuProcessNextInQueue_map f c
  | event =>
    have hbusy : cpuBusy (cpu.map f) = cpuBusy cpu := rfl
    simp only [cpuProcessEvent, CpuEvent.map, hbusy]
    split
    · rfl
    · exact cpuProcessNextInQueue_map f cpu
  | lock m id e => exact onLock_map f cpu m id e
  | unlock m id e => exact onUnlock_map f cpu m id e
  | user e =>
    have hbusy : cpuBusy (cpu.map f) = cpuBusy cpu := rfl
    simp only [cpuProcessEvent, CpuEvent.map, hbusy]
    split
    · simp [CpuState.map, CpuListItem.map, Dispatch.map]
    · exact cpuRun_map f cpu e

end Map

/-! ## 3. Nor does the simulation -/

section Renaming

variable {S K E E' σ κ χ : Type} [DecidableEq S] [DecidableEq K] {f : E → E'}

/-- The configuration for events that are renamed. -/
def SimConfig.comap (f : E → E') (conf : SimConfig S K E') : SimConfig S K E :=
  ⟨conf.network, conf.simulatedSize ∘ f⟩

/-- `P` does what `P'` does on the renamed events. -/
structure Program.Renames (f : E → E') (P : Program S K E σ κ χ) (P' : Program S K E' σ κ χ) :
    Prop where
  serve : ∀ s t st e, P'.serve s t st (f e) = (P.serve s t st e).map (.map f)
  client : ∀ k t c st e,
    P'.client k t c st (f e) = (P.client k t c st e).map fun r => (r.1, r.2.map (.map f))

theorem emitServer_map (conf : SimConfig S K E') (s : S) (net : NetworkState (S ⊕ K)) (time : ℚ)
    (o : Out S K E) :
    emitServer conf s net time (o.map f) = (emitServer (conf.comap f) s net time o).map
      (Prod.map id (Prod.map id (.map f))) := by
  cases o with
  | toServer s' e =>
    simp only [emitServer, Out.map, SimConfig.comap, Function.comp_apply, Option.bind_eq_bind]
    cases networkSend conf.network net (.inl s) (.inl s') time (conf.simulatedSize (f e)) <;> rfl
  | toClient k e =>
    simp only [emitServer, Out.map, SimConfig.comap, Function.comp_apply, Option.bind_eq_bind]
    cases networkSend conf.network net (.inl s) (.inr k) time (conf.simulatedSize (f e)) <;> rfl
  | self delay e => rfl

theorem emitServerAll_map (conf : SimConfig S K E') (s : S) (now : ℚ) :
    ∀ (outs : List (Out S K E)) (draws : List ℚ) (net : NetworkState (S ⊕ K)) (elapsed : ℚ),
      emitServerAll conf s now net elapsed (outs.map (.map f)) draws =
        (emitServerAll (conf.comap f) s now net elapsed outs draws).map
          (Prod.map id (Prod.map id (.map (Prod.map id (.map f)))))
  | [], [], _, _ => rfl
  | [], _ :: _, _, _ => rfl
  | _ :: _, [], _, _ => rfl
  | o :: outs, d :: draws, net, elapsed => by
    simp only [List.map_cons, emitServerAll, Option.bind_eq_bind, emitServer_map]
    by_cases hd : 0 ≤ d
    · simp only [hd, guard_true, Option.pure_def, Option.bind_some]
      cases emitServer (conf.comap f) s net (now + (elapsed + d)) o with
      | none => rfl
      | some x =>
        simp only [Option.map_some, Option.bind_some, Prod.map, id_eq]
        rw [emitServerAll_map conf s now outs draws]
        cases emitServerAll (conf.comap f) s now x.1 (elapsed + d) outs draws <;> rfl
    · simp [hd, guard_false]

theorem emitClient_map (conf : SimConfig S K E') (k : K) (net : NetworkState (S ⊕ K)) (time : ℚ)
    (o : Out S K E) :
    emitClient conf k net time (o.map f) = (emitClient (conf.comap f) k net time o).map
      (Prod.map id (Prod.map id (.map f))) := by
  cases o with
  | toServer s e =>
    simp only [emitClient, Out.map, SimConfig.comap, Function.comp_apply, Option.bind_eq_bind]
    cases networkSend conf.network net (.inr k) (.inl s) time (conf.simulatedSize (f e)) <;> rfl
  | toClient k' e =>
    simp only [emitClient, Out.map, SimConfig.comap, Function.comp_apply, Option.bind_eq_bind]
    cases networkSend conf.network net (.inr k) (.inr k') time (conf.simulatedSize (f e)) <;> rfl
  | self delay e => rfl

theorem emitClientAll_map (conf : SimConfig S K E') (k : K) (now : ℚ) :
    ∀ (outs : List (Out S K E)) (net : NetworkState (S ⊕ K)),
      emitClientAll conf k now net (outs.map (.map f)) =
        (emitClientAll (conf.comap f) k now net outs).map
          (Prod.map id (.map (Prod.map id (.map f))))
  | [], _ => rfl
  | o :: outs, net => by
    simp only [List.map_cons, emitClientAll, Option.bind_eq_bind, emitClient_map]
    cases emitClient (conf.comap f) k net now o with
    | none => rfl
    | some x =>
      simp only [Option.map_some, Option.bind_some, Prod.map, id_eq]
      rw [emitClientAll_map conf k now outs]
      cases emitClientAll (conf.comap f) k now x.1 outs <;> rfl

omit [DecidableEq S] [DecidableEq K] in
theorem finish_map (s : S) (now : ℚ) (cpu : CpuState E) (elapsed after : ℚ) (noTime : Bool)
    (cont : Cont E) :
    finish (K := K) s now (cpu.map f) elapsed after noTime (cont.map f) =
      (finish s now cpu elapsed after noTime cont).map (Prod.map id (.map f)) := by
  have hmay : ∀ m id, mayUnlock (cpu.map f) m id = mayUnlock cpu m id := by
    intro m id
    cases m with
    | mutex => simp only [mayUnlock, locks_map]; cases cpu.locks[id]? <;> rfl
    | read => rfl
    | write => simp only [mayUnlock, rwlocks_map]; cases cpu.rwlocks[id]? <;> rfl
  cases cont with
  | done =>
    simp only [finish, Cont.map, Option.bind_eq_bind]
    by_cases h : noTime = true ∨ 0 < elapsed
    · simp [h, guard_true, Target.map, CpuEvent.map]
    · simp [h, guard_false]
  | lock m id e =>
    simp only [finish, Cont.map, Option.bind_eq_bind]
    by_cases h : 0 ≤ after ∧ (noTime = true ∨ 0 < elapsed + after)
    · simp [h, guard_true, Target.map, CpuEvent.map]
    · simp [h, guard_false]
  | unlock m id e =>
    simp only [finish, Cont.map, Option.bind_eq_bind, hmay]
    by_cases h : mayUnlock cpu m id = true ∧ (noTime = true ∨ 0 < elapsed)
    · simp [h, guard_true, Target.map, CpuEvent.map]
    · simp [h, guard_false]

omit [DecidableEq K] in
theorem World.setServer_map (W : World S K E σ κ) (s : S) (lp : ServerLp S K E σ)
    (evs : List (ℚ × Target S K E)) :
    (W.setServer s lp evs).map f = (W.map f).setServer s ⟨lp.state, lp.cpu.map f, lp.network⟩
      (evs.map (Prod.map id (.map f))) := by
  simp only [World.map, World.setServer, List.map_append, World.mk.injEq, true_and, and_true]
  funext s'
  by_cases hs : s' = s
  · subst hs; simp
  · simp [hs]

omit [DecidableEq S] in
theorem World.setClient_map (W : World S K E σ κ) (k : K) (lp : ClientLp S K κ)
    (evs : List (ℚ × Target S K E)) :
    (W.setClient k lp evs).map f = (W.map f).setClient k lp
      (evs.map (Prod.map id (.map f))) := by
  simp only [World.map, World.setClient, List.map_append]

variable {P : Program S K E σ κ χ} {P' : Program S K E' σ κ χ}

theorem World.stepServer_map (hP : P.Renames f P') (conf : SimConfig S K E') (c : Choice χ)
    (W : World S K E σ κ) (s : S) (ev : CpuEvent E) :
    (W.map f).stepServer P' conf c s (ev.map f) =
      (W.stepServer P (conf.comap f) c s ev).map (Prod.map (.map f) (.map (.map f))) := by
  simp only [World.stepServer, Option.bind_eq_bind]
  have hcpu : cpuProcessEvent ((W.map f).servers s).cpu (ev.map f) =
      (cpuProcessEvent (W.servers s).cpu ev).map (Prod.map (.map f) (.map f)) :=
    cpuProcessEvent_map f _ ev
  rw [hcpu]
  rcases cpuProcessEvent (W.servers s).cpu ev with _ | ⟨cpu, _ | _ | e⟩
  · rfl
  · simp only [Option.map_some, Option.bind_some, Prod.map, Dispatch.map, Option.pure_def,
      World.setServer_map]
    rfl
  · simp only [Option.map_some, Option.bind_some, Prod.map, Dispatch.map, Option.pure_def,
      World.setServer_map]
    rfl
  · have hserve : P'.serve s (W.map f).now ((W.map f).servers s).state (f e) =
        (P.serve s W.now (W.servers s).state e).map (.map f) := hP.serve _ _ _ _
    simp only [Option.map_some, Option.bind_some, Prod.map, Dispatch.map, hserve]
    cases P.serve s W.now (W.servers s).state e with
    | none => rfl
    | some r =>
      have hemit : emitServerAll conf s (W.map f).now ((W.map f).servers s).network 0
          (r.outs.map (.map f)) c.draws =
          (emitServerAll (conf.comap f) s W.now (W.servers s).network 0 r.outs c.draws).map
            (Prod.map id (Prod.map id (.map (Prod.map id (.map f))))) :=
        emitServerAll_map conf s _ _ _ _ _
      simp only [Option.map_some, Option.bind_some, Outcome.map, hemit]
      rcases emitServerAll (conf.comap f) s W.now (W.servers s).network 0 r.outs c.draws with
        _ | ⟨net, elapsed, evs⟩
      · rfl
      · by_cases hlast : 0 ≤ c.last
        · have hfin : finish s (W.map f).now (cpu.map f) (elapsed + c.last) c.after r.noTime
              (r.cont.map f) = (finish (K := K) s W.now cpu (elapsed + c.last) c.after r.noTime
                r.cont).map (Prod.map id (.map f)) := finish_map s _ _ _ _ _ _
          simp only [Option.map_some, Option.bind_some, Prod.map, id_eq, hlast, guard_true,
            Option.pure_def, hfin]
          cases finish (K := K) s W.now cpu (elapsed + c.last) c.after r.noTime r.cont with
          | none => rfl
          | some ev =>
            simp only [Option.map_some, Option.bind_some, Prod.map_apply, World.setServer_map,
              List.map_append, List.map_cons, List.map_nil]
            rfl
        · simp [hlast, guard_false]

theorem World.stepClient_map (hP : P.Renames f P') (conf : SimConfig S K E') (c : Choice χ)
    (W : World S K E σ κ) (k : K) (e : E) :
    (W.map f).stepClient P' conf c k (f e) =
      (W.stepClient P (conf.comap f) c k e).map (Prod.map (.map f) (.map (.map f))) := by
  have hclient : P'.client k (W.map f).now c.decision ((W.map f).clients k).state (f e) =
      (P.client k W.now c.decision (W.clients k).state e).map fun r => (r.1, r.2.map (.map f)) :=
    hP.client _ _ _ _ _
  simp only [World.stepClient, Option.bind_eq_bind, hclient]
  cases P.client k W.now c.decision (W.clients k).state e with
  | none => rfl
  | some r =>
    have hemit : emitClientAll conf k (W.map f).now ((W.map f).clients k).network
        (r.2.map (.map f)) = (emitClientAll (conf.comap f) k W.now (W.clients k).network r.2).map
          (Prod.map id (.map (Prod.map id (.map f)))) := emitClientAll_map conf k _ _ _
    simp only [Option.map_some, Option.bind_some, hemit]
    cases emitClientAll (conf.comap f) k W.now (W.clients k).network r.2 with
    | none => rfl
    | some x =>
      simp only [Option.map_some, Option.bind_some, Option.pure_def, Prod.map_apply,
        World.setClient_map]
      rfl

/-- **Renaming events commutes with every step.** -/
theorem World.step_map (hP : P.Renames f P') (conf : SimConfig S K E') (c : Choice χ)
    (W : World S K E σ κ) :
    (W.map f).step P' conf c =
      (W.step P (conf.comap f) c).map (Prod.map (.map f) (.map (.map f))) := by
  have hev : (W.map f).events[c.pick]? = W.events[c.pick]?.map (Prod.map id (.map f)) :=
    List.getElem?_map
  simp only [World.step, Option.bind_eq_bind, hev]
  cases W.events[c.pick]? with
  | none => rfl
  | some x =>
    obtain ⟨t, tgt⟩ := x
    have hdue : ((W.map f).now ≤ t ∧ ∀ ev ∈ (W.map f).events, t ≤ ev.1) ↔
        (W.now ≤ t ∧ ∀ ev ∈ W.events, t ≤ ev.1) := by
      simp only [World.map, List.forall_mem_map]
      rfl
    simp only [Option.map_some, Option.bind_some, Prod.map, id_eq, hdue]
    by_cases h : W.now ≤ t ∧ ∀ ev ∈ W.events, t ≤ ev.1
    · have hguard : (guard (W.now ≤ t ∧ ∀ ev ∈ W.events, t ≤ ev.1) : Option Unit) = some () :=
        if_pos h
      simp only [hguard, Option.bind_some]
      have hW : ({ W.map f with
          now := t, events := (W.map f).events.eraseIdx c.pick } : World S K E' σ κ) =
          World.map f { W with now := t, events := W.events.eraseIdx c.pick } := by
        simp [World.map, List.eraseIdx_map]
      rw [hW]
      cases tgt with
      | server s ev => exact World.stepServer_map hP conf c _ s ev
      | client k e => exact World.stepClient_map hP conf c _ k e
    · have hguard : (guard (W.now ≤ t ∧ ∀ ev ∈ W.events, t ≤ ev.1) : Option Unit) = none :=
        if_neg h
      simp only [hguard, Option.bind_none, Option.map_none]

/-- **A trace of renamed events comes from a trace of the events.** -/
theorem World.Trace.lift (hP : P.Renames f P') {conf : SimConfig S K E'}
    {G : Record S K E' σ κ → Prop} {W₀ : World S K E σ κ} {W' : World S K E' σ κ}
    {tr' : List (Record S K E' σ κ)} (h : World.Trace P' conf G (W₀.map f) W' tr') :
    ∃ W tr, World.Trace P (conf.comap f) (fun r => G (r.map f)) W₀ W tr ∧ W.map f = W' ∧
      tr.map (.map f) = tr' := by
  induction h with
  | nil => exact ⟨W₀, [], .nil, rfl, rfl⟩
  | @cons _ W₁' _ t _ _ c _ hev hstep hG ih =>
    obtain ⟨W, tr, htrace, rfl, rfl⟩ := ih
    rw [World.step_map hP, Option.map_eq_some_iff] at hstep
    obtain ⟨⟨W₁, a⟩, hstep, h₁⟩ := hstep
    cases h₁
    have hev' : (W.map f).events[c.pick]? = W.events[c.pick]?.map (Prod.map id (.map f)) :=
      List.getElem?_map
    rw [hev', Option.map_eq_some_iff] at hev
    obtain ⟨⟨t', tgt⟩, hev, h₂⟩ := hev
    cases h₂
    exact ⟨W₁, ⟨W, t', tgt, a⟩ :: tr, .cons c htrace hev hstep hG, rfl, rfl⟩

end Renaming

/-! ## 4. Chains -/

section Chained

variable {S K E σ κ χ : Type}

/-- An event, and the locks its chain holds when it is handled. -/
structure Chained (E : Type) where
  event : E
  held : Multiset (Mode × ℕ)
  deriving DecidableEq

/-- An event that arrives starts a chain. -/
def Chained.start (e : E) : Chained E := ⟨e, 0⟩

/-- How a chain that holds `held` goes on. -/
def Cont.follow (held : Multiset (Mode × ℕ)) : Cont E → Cont (Chained E)
  | .done => .done
  | .lock m id e => .lock m id ⟨e, (m, id) ::ₘ held⟩
  | .unlock m id e => .unlock m id (e.map fun e => ⟨e, held.erase (m, id)⟩)

def Outcome.follow (held : Multiset (Mode × ℕ)) (r : Outcome S K E σ) :
    Outcome S K (Chained E) σ :=
  ⟨r.state, r.outs.map (.map .start), r.noTime, r.cont.follow held⟩

/-- The program, with the locks of every chain carried along. -/
def Program.chained (P : Program S K E σ κ χ) : Program S K (Chained E) σ κ χ where
  serve s t st e := (P.serve s t st e.event).map (.follow e.held)
  client k t c st e := (P.client k t c st e.event).map fun r => (r.1, r.2.map (.map .start))

def SimConfig.chained (conf : SimConfig S K E) : SimConfig S K (Chained E) :=
  ⟨conf.network, conf.simulatedSize ∘ Chained.event⟩

/-- The world at the start, where every pending event is one that arrives. -/
def World.chained (W : World S K E σ κ) : World S K (Chained E) σ κ := W.map .start

theorem Out.map_start (o : Out S K E) : (o.map Chained.start).map Chained.event = o := by
  cases o <;> rfl

theorem map_map_id {α β : Type} {f : α → β} {g : β → α} (h : ∀ x, g (f x) = x) (l : List α) :
    (l.map f).map g = l := by
  rw [List.map_map]
  exact List.map_id'' h l

theorem Outcome.map_follow (held : Multiset (Mode × ℕ)) (r : Outcome S K E σ) :
    (r.follow held).map Chained.event = r := by
  rcases r with ⟨st, outs, noTime, cont⟩
  have hcont : (cont.follow held).map Chained.event = cont := by
    cases cont with
    | unlock m id e => cases e <;> rfl
    | _ => rfl
  simp only [Outcome.follow, Outcome.map, map_map_id Out.map_start, hcont]

/-- Without the locks the chained program is the program. -/
theorem Program.chained_renames (P : Program S K E σ κ χ) :
    P.chained.Renames Chained.event P where
  serve s t st e := by
    simp only [Program.chained]
    cases P.serve s t st e.event with
    | none => rfl
    | some r => simp only [Option.map_some, Outcome.map_follow]
  client k t c st e := by
    simp only [Program.chained]
    cases P.client k t c st e.event with
    | none => rfl
    | some r => simp only [Option.map_some, map_map_id Out.map_start]

theorem CpuState.map_start (cpu : CpuState E) :
    (cpu.map Chained.start).map Chained.event = cpu := by
  have hitem : ∀ x : CpuListItem E, (x.map Chained.start).map Chained.event = x := by
    intro x
    cases x <;> rfl
  have hlock : ∀ l : CpuLock E, (l.map Chained.start).map Chained.event = l := by
    intro l
    simp only [CpuLock.map, map_map_id hitem]
  have hrwlock : ∀ l : CpuRwlock E, (l.map Chained.start).map Chained.event = l := by
    intro l
    simp only [CpuRwlock.map, map_map_id hitem]
  simp only [CpuState.map, map_map_id hitem, map_map_id hlock, map_map_id hrwlock]

theorem World.chained_forget (W : World S K E σ κ) : W.chained.map Chained.event = W := by
  have hev : ∀ x : ℚ × Target S K E,
      Prod.map id (Target.map Chained.event) (Prod.map id (Target.map Chained.start) x) = x := by
    rintro ⟨t, ⟨s, ev⟩ | ⟨k, e⟩⟩
    · cases ev with
      | unlock m id e => cases e <;> rfl
      | _ => rfl
    · rfl
  simp only [World.chained, World.map, CpuState.map_start, map_map_id hev]

/-- **Every trace of the program is a trace of the chained program**, with the locks of the
chains forgotten. -/
theorem World.Trace.chained [DecidableEq S] [DecidableEq K] {P : Program S K E σ κ χ}
    {conf : SimConfig S K E} {G : Record S K E σ κ → Prop} {W₀ W : World S K E σ κ}
    {tr : List (Record S K E σ κ)} (h : World.Trace P conf G W₀ W tr) :
    ∃ W' tr', World.Trace P.chained conf.chained (fun r => G (r.map Chained.event)) W₀.chained
      W' tr' ∧ W'.map Chained.event = W ∧ tr'.map (.map Chained.event) = tr := by
  rw [← World.chained_forget W₀] at h
  exact h.lift P.chained_renames

/-! ## 5. Where chains start -/

theorem CpuState.Fresh.map {cpu : CpuState E} (h : cpu.Fresh) (f : E → E') :
    (cpu.map f).Fresh where
  cores := h.cores
  busy := h.busy
  queue := by simp [CpuState.map, h.queue]
  locks l hl := by
    obtain ⟨l', hl', rfl⟩ := List.mem_map.mp hl
    rw [h.locks l' hl']
    rfl
  rwlocks l hl := by
    obtain ⟨l', hl', rfl⟩ := List.mem_map.mp hl
    rw [h.rwlocks l' hl']
    rfl

/-- At the start a chained world is as fresh as the world. -/
theorem World.Fresh.chained [DecidableEq S] {W : World S K E σ κ} (h : W.Fresh) :
    W.chained.Fresh := by
  refine fun s => ⟨(h s).1.map _, Multiset.eq_zero_of_forall_notMem fun x hx => ?_⟩
  obtain ⟨hmem, hev⟩ := World.mem_messages.mp hx
  obtain ⟨⟨t, tgt⟩, hx', heq⟩ := List.mem_map.mp hmem
  rcases tgt with ⟨s', ev⟩ | ⟨k, e⟩
  · simp only [Prod.map, Target.map, Prod.mk.injEq, Target.server.injEq, id_eq] at heq
    obtain ⟨-, rfl, hev'⟩ := heq
    have hmsg : (t, ev) ∈ W.messages s' := World.mem_messages.mpr ⟨hx', fun e he => by
      subst he
      exact hev _ hev'.symm⟩
    rw [(h s').2] at hmsg
    cases hmsg
  · cases heq

/-- An event that arrives holds nothing, and one that waits for a lock will hold it. -/
def Task.Placed : Task S K (Chained E) → Prop
  | .pending _ e => e.held = 0
  | .request _ m id e => (m, id) ∈ e.held
  | .release _ _ _ _ _ => True
  | .client _ _ => True

variable [DecidableEq S] [DecidableEq K] [Fintype S] {P : Program S K E σ κ χ}
  {C : Cond S K (Chained E) σ κ}

omit [Fintype S] in
/-- Every task is well placed, in every run. -/
theorem Run.placed {A₀ A : Config S K (Chained E) σ κ} {h : List (Act S K (Chained E) σ κ)}
    (h0 : ∀ x ∈ A₀.pool, x.Placed) (hrun : Run P.chained C A₀ A h) : ∀ x ∈ A.pool, x.Placed := by
  refine Run.induction (I := fun A _ => ∀ x ∈ A.pool, x.Placed) h0 ?_ hrun
  intro A A' h a _ ih hstep _
  cases hstep with
  | @serve s t x e tb r rest new hpool ht hx hr hnew =>
    obtain ⟨u, -, -, rfl⟩ := hnew
    obtain ⟨r', hr', rfl⟩ := Option.map_eq_some_iff.mp hr
    intro y hy
    rcases Multiset.mem_add.mp hy with hy | hy
    · exact ih y (by rw [hpool]; exact Multiset.mem_cons_of_mem hy)
    rcases Outcome.mem_tasks.mp (Multiset.mem_coe.mp hy) with
      ⟨o, ho, rfl⟩ | ⟨m, id, e', hc, rfl⟩ | ⟨m, id, e', hc, rfl⟩
    · obtain ⟨o', -, rfl⟩ := List.mem_map.mp ho
      cases o' <;> simp [Out.map, Out.taskOf, Task.Placed, Chained.start]
    · cases hcont : r'.cont with
      | lock m' id' e'' =>
        simp only [Outcome.follow, hcont, Cont.follow, Cont.lock.injEq] at hc
        obtain ⟨rfl, rfl, rfl⟩ := hc
        exact Multiset.mem_cons_self _ _
      | done => simp [Outcome.follow, hcont, Cont.follow] at hc
      | unlock => simp [Outcome.follow, hcont, Cont.follow] at hc
    · trivial
  | release hpool => exact fun y hy => ih y (by rw [hpool]; exact Multiset.mem_cons_of_mem hy)
  | client hpool ht hr =>
    obtain ⟨r', -, rfl⟩ := Option.map_eq_some_iff.mp hr
    intro y hy
    rcases Multiset.mem_add.mp hy with hy | hy
    · exact ih y (by rw [hpool]; exact Multiset.mem_cons_of_mem hy)
    obtain ⟨o, ho, rfl⟩ := List.mem_map.mp (Multiset.mem_coe.mp hy)
    obtain ⟨o', -, rfl⟩ := List.mem_map.mp ho
    cases o' <;> trivial
  | wait => exact ih

omit [DecidableEq S] [DecidableEq K] in
theorem World.event_mem_pool {W : World S K E σ κ} {t : ℚ} {tgt : Target S K E} {x : Task S K E}
    (h : (t, tgt) ∈ W.events) (hx : tgt.task t = some x) : x ∈ W.config.pool :=
  Multiset.mem_add.mpr (.inl (Multiset.mem_coe.mpr (List.mem_filterMap.mpr ⟨_, h, hx⟩)))

omit [DecidableEq S] [DecidableEq K] in
theorem World.item_mem_pool {W : World S K E σ κ} {s : S} {x : CpuListItem E}
    (h : x ∈ (W.servers s).cpu.items) : x.task s ∈ W.config.pool :=
  Multiset.mem_add.mpr (.inr (Multiset.mem_sum.mpr
    ⟨s, Finset.mem_univ s, Multiset.mem_map_of_mem _ h⟩))

variable {conf : SimConfig S K (Chained E)} {G : Record S K (Chained E) σ κ → Prop}
  {W₀ : World S K E σ κ} {W : World S K (Chained E) σ κ} {tr : List (Record S K (Chained E) σ κ)}

/-- In a chained run from a fresh world everything is well placed. -/
theorem World.Trace.placed (hfresh : W₀.Fresh)
    (htrace : World.Trace P.chained conf G W₀.chained W tr) : ∀ x ∈ W.config.pool, x.Placed := by
  refine Run.placed (fun x hx => ?_) htrace.run.config
  rcases Multiset.mem_add.mp hx with hx | hx
  · obtain ⟨⟨t, tgt⟩, hev, hx⟩ := List.mem_filterMap.mp (Multiset.mem_coe.mp hx)
    obtain ⟨⟨t', tgt'⟩, hev', heq⟩ := List.mem_map.mp hev
    cases heq
    rcases tgt' with ⟨s, ev⟩ | ⟨k, e⟩
    · cases ev with
      | user e => cases hx; exact rfl
      | freeCore => cases hx
      | event => cases hx
      | lock m id e =>
        have : (t', .lock m id e) ∈ W₀.messages s := World.mem_messages.mpr ⟨hev', by simp⟩
        rw [(hfresh s).2] at this
        cases this
      | unlock m id e => cases hx; trivial
    · cases hx; trivial
  · obtain ⟨s, -, hx⟩ := Multiset.mem_sum.mp hx
    rw [(hfresh.chained s).1.items] at hx
    cases hx

end Chained

end CCSim
