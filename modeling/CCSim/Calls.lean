/-
# What a handler calls, in order

`Outcome` says what a handler has handed over when it returns and how it goes on, and leaves open
how its calls are interleaved with the use of CPU time.  Here a handler is looked at more closely:
as the list of all calls that concern its CPU, in the order of the source.  `Gr/Calls.lean` and
`Grv/Calls.lean` list the calls of every handler; `CpuCall.Describes` ties such a list to the outcome
of the handler.

A use of CPU time names the timing function it is drawn from, so the list also says how many random
values a handler draws.  What a handler would call after an assertion failed is of no interest.
-/
import CCSim.Store
import CCSim.Lib.TaskPool

namespace CCSim

/-! ## 1. Calls -/

/-- The timing functions (`DEFINE_TIMING_FUNC` and `DEFINE_PROTOCOL_TIMING_FUNC`).  `grv` shares
those of `gr` that it does not replace. -/
inductive Timing
  | lockTime
  | serverSendTime
  | serverSendPerByteTime
  | buildStructPerByteTime
  | processClockTickTime
  | minReplicaVersionPerReplicaTime
  | processLstFromLeafPerReplicaTime
  | processLstFromLeafEndPerReplicaTime
  | checkGstTime
  | updateGstTime
  | updateGstPerRotxTime
  | processGetRequestPreTime
  | processPutRequestPreTime
  | processHeartbeatTime
  | processReplicaUpdateTime
  | processSliceResponsePerValueTime
  | getValueTime
  | putValueTime
  | isValueVisibleTime
  | checkGstVectorPerReplicaTime
  | updateGstVectorPerReplicaTime
  | updateGstVectorPerUpdateTime
  | processRotxRequestPerPartitionTime
  deriving DecidableEq, Repr

/-- The sizes CPU times are multiplied with.  `simulatedSize` and `size` are those of the message
of an event, the rest is the `sizeof` of types, and `GR_SIMULATED_VALUE_SIZE`. -/
structure Sizes (E : Type) where
  simulatedSize : E → ℕ
  size : E → ℕ
  putResponse : ℕ
  rotxState : ℕ
  snapshotState : ℕ
  key : ℕ
  value : ℕ
  tsp : ℕ

/-- Everything is one byte long. -/
def byteSizes (E : Type) : Sizes E := ⟨fun _ => 1, fun _ => 1, 1, 1, 1, 1, 1, 1⟩

/-- A call of a handler.  `addTime` is `cpu_add_time` of a number times a timing function, and
`output` is `server_send` or `server_schedule_self`.  `saveTime` and `restoreTime` are
`cpu_elapsed_time` and `cpu_set_elapsed_time` around a walk over the store. -/
inductive CpuCall (S K E : Type)
  | addTime (factor : ℕ) (timing : Timing)
  | saveTime
  | restoreTime
  | allowNoTime
  | output (o : Out S K E)
  | lock (m : Mode) (id : ℕ) (e : E)
  | unlock (m : Mode) (id : ℕ) (e : Option E)
  | storePut (key : ℕ)
  deriving DecidableEq, Repr

variable {S K E σ : Type}

/-- `cpu_lock_lock` and `cpu_lock_unlock`. -/
def CpuCall.isLock : CpuCall S K E → Bool
  | .lock _ _ _ => true
  | .unlock _ _ _ => true
  | _ => false

/-- The calls that may not follow a lock call: they assert `!lock_called`, or
`!continues_in_scheduled_event`. -/
def CpuCall.isGuarded : CpuCall S K E → Bool
  | .addTime _ _ => true
  | .output _ => true
  | .lock _ _ _ => true
  | .unlock _ _ _ => true
  | _ => false

/-- The calls that only use or measure CPU time. -/
def CpuCall.isTime : CpuCall S K E → Bool
  | .addTime _ _ => true
  | .saveTime => true
  | .restoreTime => true
  | _ => false

/-! ## 2. Calls and outcomes -/

@[simp]
def CpuCall.out? : CpuCall S K E → Option (Out S K E)
  | .output o => some o
  | _ => none

@[simp]
def CpuCall.isNoTime : CpuCall S K E → Bool
  | .allowNoTime => true
  | _ => false

/-- What is handed over. -/
def callOuts (calls : List (CpuCall S K E)) : List (Out S K E) := calls.filterMap CpuCall.out?

/-- How the handler goes on. -/
def callCont : List (CpuCall S K E) → Cont E
  | [] => .done
  | .lock m id e :: _ => .lock m id e
  | .unlock m id e :: _ => .unlock m id e
  | _ :: calls => callCont calls

/-- Whether the handler may use no CPU time. -/
def callNoTime (calls : List (CpuCall S K E)) : Bool := calls.any CpuCall.isNoTime

/-- The calls are those of a handler with this outcome. -/
structure CpuCall.Describes (calls : List (CpuCall S K E)) (r : Outcome S K E σ) : Prop where
  outs : callOuts calls = r.outs
  cont : callCont calls = r.cont
  noTime : callNoTime calls = r.noTime

section Outs

variable (calls calls' : List (CpuCall S K E)) (outs : List (Out S K E))

@[simp] theorem callOuts_nil : callOuts ([] : List (CpuCall S K E)) = [] := rfl

@[simp]
theorem callOuts_cons (call : CpuCall S K E) :
    callOuts (call :: calls) = call.out?.toList ++ callOuts calls := by
  unfold callOuts
  rw [List.filterMap_cons]
  cases call.out? <;> rfl

@[simp]
theorem callOuts_append : callOuts (calls ++ calls') = callOuts calls ++ callOuts calls' :=
  List.filterMap_append

@[simp]
theorem callOuts_map_output : callOuts (outs.map .output) = outs := by
  induction outs with
  | nil => rfl
  | cons o outs ih =>
    rw [List.map_cons, callOuts_cons, ih]
    rfl

@[simp] theorem callNoTime_nil : callNoTime ([] : List (CpuCall S K E)) = false := rfl

@[simp]
theorem callNoTime_cons (call : CpuCall S K E) :
    callNoTime (call :: calls) = (call.isNoTime || callNoTime calls) := rfl

@[simp]
theorem callNoTime_append :
    callNoTime (calls ++ calls') = (callNoTime calls || callNoTime calls') :=
  List.any_append

@[simp]
theorem callNoTime_map_output : callNoTime (outs.map .output) = false := by
  induction outs with
  | nil => rfl
  | cons o outs ih =>
    rw [List.map_cons, callNoTime_cons, ih]
    rfl

end Outs

/-! ## 3. Calls that only use time -/

/-- Nothing is handed over, and no lock is asked for or given back. -/
def TimeOnly (calls : List (CpuCall S K E)) : Prop := ∀ a ∈ calls, a.isTime

section TimeOnly

variable {calls calls' : List (CpuCall S K E)}

theorem timeOnly_nil : TimeOnly ([] : List (CpuCall S K E)) := List.forall_mem_nil _

theorem TimeOnly.cons {call : CpuCall S K E} (h : call.isTime) (h' : TimeOnly calls) :
    TimeOnly (call :: calls) :=
  List.forall_mem_cons.mpr ⟨h, h'⟩

theorem TimeOnly.append (h : TimeOnly calls) (h' : TimeOnly calls') : TimeOnly (calls ++ calls') :=
  List.forall_mem_append.mpr ⟨h, h'⟩

theorem TimeOnly.flatMap {α : Type} {l : List α} {f : α → List (CpuCall S K E)}
    (h : ∀ x ∈ l, TimeOnly (f x)) : TimeOnly (l.flatMap f) := by
  intro a ha
  obtain ⟨x, hx, ha⟩ := List.mem_flatMap.mp ha
  exact h x hx a ha

theorem TimeOnly.outs (h : TimeOnly calls) : callOuts calls = [] := by
  refine List.filterMap_eq_nil_iff.mpr fun call hcall => ?_
  have htime := h call hcall
  cases call <;> first | rfl | cases htime

theorem TimeOnly.noTime (h : TimeOnly calls) : callNoTime calls = false := by
  refine List.any_eq_false.mpr fun call hcall => ?_
  have htime := h call hcall
  cases call <;> first | exact Bool.false_ne_true | cases htime

end TimeOnly

/-! ## 4. Lock calls at the end -/

/-- A lock call is not followed by a call that it forbids. -/
def LocksLast (calls : List (CpuCall S K E)) : Prop :=
  calls.Pairwise fun a b => a.isLock → b.isGuarded = false

/-- Calls that have nothing to do with locks. -/
def LockFree (calls : List (CpuCall S K E)) : Prop := ∀ a ∈ calls, a.isLock = false

instance (calls : List (CpuCall S K E)) : Decidable (LocksLast calls) :=
  inferInstanceAs (Decidable (List.Pairwise _ _))

variable {calls calls' : List (CpuCall S K E)}

theorem lockFree_nil : LockFree ([] : List (CpuCall S K E)) := List.forall_mem_nil _

theorem LockFree.cons {call : CpuCall S K E} (h : call.isLock = false) (h' : LockFree calls) :
    LockFree (call :: calls) :=
  List.forall_mem_cons.mpr ⟨h, h'⟩

theorem LockFree.append (h : LockFree calls) (h' : LockFree calls') :
    LockFree (calls ++ calls') :=
  List.forall_mem_append.mpr ⟨h, h'⟩

theorem LockFree.flatMap {α : Type} {l : List α} {f : α → List (CpuCall S K E)}
    (h : ∀ x ∈ l, LockFree (f x)) : LockFree (l.flatMap f) := by
  intro a ha
  obtain ⟨x, hx, ha⟩ := List.mem_flatMap.mp ha
  exact h x hx a ha

theorem TimeOnly.lockFree (h : TimeOnly calls) : LockFree calls := by
  intro call hcall
  have htime := h call hcall
  cases call <;> first | rfl | cases htime

theorem lockFree_map_output (outs : List (Out S K E)) : LockFree (outs.map .output) := by
  intro a ha
  obtain ⟨o, -, rfl⟩ := List.mem_map.mp ha
  rfl

theorem locksLast_nil : LocksLast ([] : List (CpuCall S K E)) := .nil

theorem locksLast_singleton (call : CpuCall S K E) : LocksLast [call] := List.pairwise_singleton _ _

theorem LocksLast.cons {call : CpuCall S K E} (h : call.isLock = false) (h' : LocksLast calls) :
    LocksLast (call :: calls) := by
  refine List.pairwise_cons.mpr ⟨fun b _ hlock => ?_, h'⟩
  rw [h] at hlock
  cases hlock

theorem LocksLast.append (h : LockFree calls) (h' : LocksLast calls') :
    LocksLast (calls ++ calls') := by
  induction calls with
  | nil => exact h'
  | cons call calls ih =>
    have hcall := List.forall_mem_cons.mp h
    exact .cons hcall.1 (ih hcall.2)

theorem LockFree.locksLast (h : LockFree calls) : LocksLast calls := by
  have hlast := LocksLast.append h (locksLast_nil (S := S) (K := K) (E := E))
  rwa [List.append_nil] at hlast

theorem LockFree.cont (h : LockFree calls) : callCont (calls ++ calls') = callCont calls' := by
  induction calls with
  | nil => rfl
  | cons call calls ih =>
    have hcall := List.forall_mem_cons.mp h
    rw [← ih hcall.2, List.cons_append]
    cases call <;> first | rfl | cases hcall.1

theorem LockFree.cont_done (h : LockFree calls) : callCont calls = .done := by
  rw [← List.append_nil calls, h.cont]
  rfl

/-- Calls that only use time, before the calls of a handler. -/
theorem CpuCall.Describes.after_time {r : Outcome S K E σ} (htime : TimeOnly calls)
    (h : CpuCall.Describes calls' r) : CpuCall.Describes (calls ++ calls') r where
  outs := by rw [callOuts_append, htime.outs, h.outs]; rfl
  cont := htime.lockFree.cont.trans h.cont
  noTime := by rw [callNoTime_append, htime.noTime, h.noTime]; rfl

theorem CpuCall.Describes.cons {r : Outcome S K E σ} {call : CpuCall S K E} (hcall : call.isTime)
    (h : CpuCall.Describes calls r) : CpuCall.Describes (call :: calls) r :=
  .after_time (.cons hcall timeOnly_nil) h

/-- A call that uses the CPU after a lock call is a breach. -/
theorem not_locksLast {call : CpuCall S K E} (h : call.isLock = true)
    (hguarded : ∃ b ∈ calls', b.isGuarded = true) : ¬LocksLast (calls ++ call :: calls') := by
  intro hlast
  obtain ⟨b, hb, hguarded⟩ := hguarded
  have hafter := (List.pairwise_cons.mp (List.pairwise_append.mp hlast).2.1).1 b hb h
  rw [hguarded] at hafter
  cases hafter

/-! ## 5. Calls both protocols make in the same way -/

section Store

variable {R D : Type}

/-- `gr_get_value_at` and `grv_get_value_at` on one chain; `test` lists the calls of the test for
visibility. -/
def getValueAtCalls (isVisible : Item R D → Bool) (test : Item R D → List (CpuCall S K E)) :
    List (Item R D) → List (CpuCall S K E)
  | [] => [.addTime 1 .getValueTime]
  | item :: chain =>
    test item ++ if isVisible item then [.addTime 1 .getValueTime]
      else getValueAtCalls isVisible test chain

/-- The walk of `gr_stats_gst_update` and `grv_stats_gst_update` down one chain. -/
def statsGstUpdateCalls (oldVisible : Item R D → Bool)
    (oldTest newTest : Item R D → List (CpuCall S K E)) : List (Item R D) → List (CpuCall S K E)
  | [] => []
  | item :: chain =>
    oldTest item ++ if oldVisible item then []
      else newTest item ++ statsGstUpdateCalls oldVisible oldTest newTest chain

variable {isVisible oldVisible : Item R D → Bool}
  {test oldTest newTest : Item R D → List (CpuCall S K E)}

theorem getValueAtCalls_timeOnly (h : ∀ item, TimeOnly (test item)) (chain : List (Item R D)) :
    TimeOnly (getValueAtCalls isVisible test chain) := by
  induction chain with
  | nil => exact .cons rfl timeOnly_nil
  | cons item chain ih =>
    rw [getValueAtCalls]
    refine (h item).append ?_
    split
    · exact .cons rfl timeOnly_nil
    · exact ih

/-- What holds of all calls of the tests holds of all calls of the walk. -/
theorem forall_mem_statsGstUpdateCalls {p : CpuCall S K E → Prop}
    (h : ∀ item, ∀ a ∈ oldTest item, p a) (h' : ∀ item, ∀ a ∈ newTest item, p a)
    (chain : List (Item R D)) :
    ∀ a ∈ statsGstUpdateCalls oldVisible oldTest newTest chain, p a := by
  induction chain with
  | nil => exact List.forall_mem_nil _
  | cons item chain ih =>
    rw [statsGstUpdateCalls]
    refine List.forall_mem_append.mpr ⟨h item, ?_⟩
    split
    · exact List.forall_mem_nil _
    · exact List.forall_mem_append.mpr ⟨h' item, ih⟩

variable [DecidableEq R] [LT R] [DecidableRel (α := R) (· < ·)]

/-- `gr_process_replica_update_work` and `gr_process_replica_update_unlocked`, which call each
other; the calls of `replicaUpdateWork`. -/
def replicaUpdateWorkCalls (rules : UpdateRules R) (store : Store R D)
    (lock : ReplicaUpdate R D → CpuCall S K E) : List (ReplicaUpdate R D) → List (CpuCall S K E)
  | [] => [.allowNoTime]
  | update :: queue =>
    .addTime 1 .processReplicaUpdateTime :: .addTime 1 .getValueTime ::
      if update.Conflicts rules.zero store then
        if update.IsOlder rules.zero store then replicaUpdateWorkCalls rules store lock queue
        else if rules.installNewer then [lock update]
        else []
      else [lock update]

variable {rules : UpdateRules R} {store : Store R D} {lock : ReplicaUpdate R D → CpuCall S K E}

theorem replicaUpdateWorkCalls_outs (m : Mode) (id : ReplicaUpdate R D → ℕ)
    (e : ReplicaUpdate R D → E) (queue : List (ReplicaUpdate R D)) :
    callOuts (replicaUpdateWorkCalls (S := S) (K := K) rules store
      (fun update => .lock m (id update) (e update)) queue) = [] := by
  induction queue with
  | nil => rfl
  | cons update queue ih =>
    rw [replicaUpdateWorkCalls, callOuts_cons, callOuts_cons]
    split
    · split
      · exact ih
      · split <;> rfl
    · rfl

/-- A lock is the last thing the work on a queue asks for. -/
theorem replicaUpdateWorkCalls_locksLast (queue : List (ReplicaUpdate R D)) :
    LocksLast (replicaUpdateWorkCalls rules store lock queue) := by
  induction queue with
  | nil => exact locksLast_singleton _
  | cons update queue ih =>
    rw [replicaUpdateWorkCalls]
    refine .cons rfl (.cons rfl ?_)
    split
    · split
      · exact ih
      · split
        · exact locksLast_singleton _
        · exact locksLast_nil
    · exact locksLast_singleton _

/-- The lock is asked for that `replicaUpdateWork` says, and no time is allowed if the queue has
become empty. -/
theorem replicaUpdateWorkCalls_work (m : Mode) (id : ReplicaUpdate R D → ℕ)
    (e : ReplicaUpdate R D → E) {queue : List (ReplicaUpdate R D)}
    {r : List (ReplicaUpdate R D) × Option (ReplicaUpdate R D)}
    (h : replicaUpdateWork rules store queue = some r) :
    let calls := replicaUpdateWorkCalls (S := S) (K := K) rules store
      (fun update => .lock m (id update) (e update)) queue
    callNoTime calls = decide (r.1 = []) ∧
      callCont calls = r.2.elim .done fun update => .lock m (id update) (e update) := by
  induction queue with
  | nil =>
    cases h
    exact ⟨rfl, rfl⟩
  | cons update queue ih =>
    rw [replicaUpdateWork] at h
    split at h
    · cases h
    · rw [replicaUpdateWorkCalls]
      split at h
      · rename_i hconflict
        rw [if_pos hconflict]
        split at h
        · rename_i hold
          rw [if_pos hold]
          split at h
          · cases h
          · exact ih h
        · rename_i hnew
          rw [if_neg hnew]
          split at h <;> rename_i hinstall <;> cases h
          · rw [if_pos hinstall]
            exact ⟨rfl, rfl⟩
          · rw [if_neg hinstall]
            exact ⟨rfl, rfl⟩
      · rename_i hconflict
        cases h
        rw [if_neg hconflict]
        exact ⟨rfl, rfl⟩

end Store

end CCSim
