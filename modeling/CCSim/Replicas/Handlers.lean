/-
# Handlers, and the jobs they leave behind

A protocol has many handlers, and most have nothing to do with versions.  `Handlers` collects what
has to be known to say so: under which lock each event runs, its role, and the part of a server's
state that is about versions.  A handler is QUIET if it leaves that part alone and starts no work
on versions; otherwise it MOVES the versions as the role of its event says.  Either way it ends in
a way that suits the lock it runs under, and when all handlers of a program do, the program
replicates versions (`Handlers.replicating`).
-/
import CCSim.Replicas.Moves

namespace CCSim

open Replication

variable {c : Cluster} {D E σ κ χ : Type}

/-! ## 1. Jobs -/

/-- The replicas that `foreach_replica` goes through, less the own one. -/
def others (s : ServerId c) : List (Replica c) := (List.finRange c.numReplicas).filter (· ≠ s.1)

theorem mem_others {s : ServerId c} {j : Replica c} : j ∈ others s ↔ j ≠ s.1 := by
  simp [others]

theorem others_nodup (s : ServerId c) : (others s).Nodup := (List.nodup_finRange _).filter _

section Jobs

variable {role : E → Role c D} {p : Partition c} {s : ServerId c}
  {r : Outcome (ServerId c) (ClientId c) E σ}
  {outs : List (Out (ServerId c) (ClientId c) E)}

/-- The jobs of partition `p` among the outputs of the server `s`. -/
def outJobs (role : E → Role c D) (s : ServerId c) (p : Partition c)
    (outs : List (Out (ServerId c) (ClientId c) E)) :
    List (Job (Stored c D) (Replica c) ℚ) :=
  outs.filterMap fun o => (o.taskOf s).job role p

/-- The job in which the work of a handler goes on. -/
def contJobs (role : E → Role c D) (s : ServerId c) (cont : Cont E) :
    List (Job (Stored c D) (Replica c) ℚ) :=
  cont.event?.toList.filterMap fun e => (role e).job s.1

/-- The jobs an outcome leaves behind are those among its outputs and the one it goes on with. -/
theorem Outcome.jobs_eq {a b : List (Job (Stored c D) (Replica c) ℚ)}
    (ha : ∀ p, outJobs role s p r.outs = if p = s.2 then a else [])
    (hb : contJobs role s r.cont = b) (u : ℚ) (p : Partition c) :
    ((r.tasks s u : List _) : Multiset _).filterMap (Task.job role p) =
      if p = s.2 then ((a : Multiset _) + (b : Multiset _)) else 0 := by
  have hcont : (r.cont.tasks s u).filterMap (Task.job role p) = if p = s.2 then b else [] := by
    rw [← hb]
    by_cases hp : p = s.2
    · subst hp
      rcases r.cont with _ | ⟨m, id, e⟩ | ⟨m, id, _ | e⟩ <;>
        simp [Cont.tasks, contJobs, Cont.event?, Task.job, Task.event?, List.filterMap_cons]
    · rcases r.cont with _ | ⟨m, id, e⟩ | ⟨m, id, _ | e⟩ <;>
        simp [Cont.tasks, Task.job, Task.event?, hp, Ne.symm hp]
  have hout : (r.outs.map (Out.taskOf s)).filterMap (Task.job role p) =
      if p = s.2 then a else [] := by
    rw [← ha p, List.filterMap_map]
    rfl
  rw [Outcome.tasks, Multiset.filterMap_coe, List.filterMap_append, hout, hcont]
  split <;> rfl

/-- Events that are no jobs leave none. -/
theorem outJobs_idle (h : ∀ o ∈ outs, ∀ q, (role o.event).job q = none) (p : Partition c) :
    outJobs role s p outs = if p = s.2 then [] else [] := by
  rw [ite_self, outJobs, List.filterMap_eq_nil_iff]
  intro o ho
  have := h o ho
  cases o <;> simp_all [Task.job, Task.event?, Out.taskOf, Out.event]

/-- What is sent to all other replicas. -/
theorem outJobs_broadcast {e : E} {f : Replica c → Job (Stored c D) (Replica c) ℚ}
    (hf : ∀ q, (role e).job q = some (f q)) (p : Partition c) :
    outJobs role s p ((otherReplicas s).map fun s' => .toServer s' e) =
      if p = s.2 then (others s).map f else [] := by
  unfold outJobs otherReplicas
  rw [List.map_map, List.filterMap_map]
  simp only [Function.comp_def, Task.job, Out.taskOf, Task.event?, Option.bind_some, hf]
  by_cases hp : p = s.2
  · simp [hp, others, List.filterMap_eq_map']
  · simp [hp, Ne.symm hp]

theorem outJobs_append (outs' : List (Out (ServerId c) (ClientId c) E)) (p : Partition c) :
    outJobs role s p (outs ++ outs') = outJobs role s p outs ++ outJobs role s p outs' :=
  List.filterMap_append

end Jobs

/-! ## 2. Quiet handlers -/

/-- Kinds and roles of the events of a protocol, and what of a server's state is about versions. -/
structure Handlers (c : Cluster) (D E σ : Type) where
  kind : E → Kind
  role : E → Role c D
  view : ServerId c → σ → ReplicaState c D
  rules : ServerId c → UpdateRules (Replica c)

/-- An event that needs no lock, and is about no version that another replica made. -/
def Handlers.Idle (H : Handlers c D E σ) (e : E) : Prop :=
  H.kind e = .plain ∧ ∀ q, (H.role e).job q = none

/-- The handler of the server `s` that ran with the lock `held`, if any, on `st` was quiet. -/
structure Handlers.Quiet (H : Handlers c D E σ) (s : ServerId c) (st : σ)
    (held : Option (Mode × ℕ)) (r : Outcome (ServerId c) (ClientId c) E σ) : Prop where
  suits : r.cont.Suits H.kind held
  outs : ∀ o ∈ r.outs, H.Idle o.event
  cont : ∀ e ∈ r.cont.event?, ∀ q, (H.role e).job q = none
  view : H.view s r.state = H.view s st

/-- A handler that ends as it should, and moves the versions as the role of its event says. -/
structure Handlers.Moves (H : Handlers c D E σ) (s : ServerId c) (clock : ℚ) (st : σ) (e : E)
    (r : Outcome (ServerId c) (ClientId c) E σ) : Prop where
  suits : r.cont.Suits H.kind (H.kind e).held
  outs : ∀ o ∈ r.outs, H.kind o.event = .plain
  move : ∃ jobs, Move (H.rules s) s.1 clock (H.role e) (H.view s st) (H.view s r.state)
    jobs ∧ ∀ u p, ((r.tasks s u : List _) : Multiset _).filterMap (Task.job H.role p) =
      if p = s.2 then jobs else 0

section Handlers

variable {H : Handlers c D E σ} {s : ServerId c} {st st' : σ} {e : E} {clock : ℚ}
  {r : Outcome (ServerId c) (ClientId c) E σ} {outs : List (Out (ServerId c) (ClientId c) E)}
  {noTime : Bool}

/-- A handler that is done. -/
theorem Handlers.Quiet.done (hv : H.view s st' = H.view s st) (ho : ∀ o ∈ outs, H.Idle o.event) :
    H.Quiet s st none { state := st', outs := outs, noTime := noTime } where
  suits := trivial
  outs := ho
  cont _ h := by cases h
  view := hv

/-- A handler that asks for a lock. -/
theorem Handlers.Quiet.lock {m : Mode} {id : ℕ} (hv : H.view s st' = H.view s st)
    (he : H.kind e = .locked m id) (hj : ∀ q, (H.role e).job q = none)
    (ho : ∀ o ∈ outs, H.Idle o.event) :
    H.Quiet s st none { state := st', outs := outs, noTime := noTime, cont := .lock m id e } where
  suits := he
  outs := ho
  cont _ h := by cases h; exact hj
  view := hv

/-- A handler that gives its lock back. -/
theorem Handlers.Quiet.unlock {m : Mode} {id : ℕ} {e : Option E}
    (hv : H.view s st' = H.view s st)
    (he : ∀ x ∈ e, H.kind x = .unlocked m id ∧ ∀ q, (H.role x).job q = none)
    (ho : ∀ o ∈ outs, H.Idle o.event) :
    H.Quiet s st (some (m, id))
      { state := st', outs := outs, noTime := noTime, cont := .unlock m id e } where
  suits := ⟨rfl, rfl, fun x hx => (he x hx).1⟩
  outs := ho
  cont x hx := (he x hx).2
  view := hv

theorem Handlers.Quiet.of_view {held : Option (Mode × ℕ)} (h : H.Quiet s st' held r)
    (hv : H.view s st' = H.view s st) : H.Quiet s st held r :=
  { h with view := h.view.trans hv }

/-- The jobs are counted in the outputs and in what the handler goes on with. -/
theorem Handlers.Moves.intro {a b : List (Job (Stored c D) (Replica c) ℚ)}
    {J : Multiset (Job (Stored c D) (Replica c) ℚ)} {l : ReplicaState c D}
    (hs : r.cont.Suits H.kind (H.kind e).held) (ho : ∀ o ∈ r.outs, H.kind o.event = .plain)
    (ha : ∀ p, outJobs H.role s p r.outs = if p = s.2 then a else [])
    (hb : contJobs H.role s r.cont = b) (hv : H.view s r.state = l)
    (hm : Move (H.rules s) s.1 clock (H.role e) (H.view s st) l J)
    (hj : ((a ++ b : List _) : Multiset _) = J) : H.Moves s clock st e r :=
  ⟨hs, ho, _, hv ▸ hm, hj ▸ Outcome.jobs_eq ha hb⟩

theorem outJobs_nil {role : E → Role c D} (p : Partition c) :
    outJobs role s p ([] : List (Out (ServerId c) (ClientId c) E)) = if p = s.2 then [] else [] :=
  outJobs_idle (List.forall_mem_nil _) p

theorem Handlers.Quiet.moves (h : H.Quiet s st (H.kind e).held r) (he : H.role e = .other) :
    H.Moves s clock st e r := by
  refine .intro h.suits (fun o ho => (h.outs o ho).1)
    (outJobs_idle fun o ho => (h.outs o ho).2) (b := []) ?_ h.view ?_ rfl
  · rw [contJobs, List.filterMap_eq_nil_iff]
    intro x hx
    exact h.cont x (Option.mem_toList.mp hx) _
  · rw [he]
    exact .other _

end Handlers

/-! ## 3. The version vector in the view

The own entry of the version vector is no part of the view, where it is 0. -/

section Vector

variable {s : ServerId c}

/-- Writing the own entry of the version vector is not seen. -/
theorem view_own (v : Replica c → ℚ) (y : ℚ) :
    (fun j => if j = s.1 then 0 else Function.update v s.1 y j) =
      fun j => if j = s.1 then (0 : ℚ) else v j := by
  funext j
  by_cases hj : j = s.1
  · simp [hj]
  · simp [hj]

/-- Writing another entry is. -/
theorem view_entry (v : Replica c → ℚ) (j : Replica c) (y : ℚ) :
    (fun i => if i = s.1 then 0 else Function.update v j y i) =
      if j ≠ s.1 then Function.update (fun i => if i = s.1 then (0 : ℚ) else v i) j y
      else fun i => if i = s.1 then (0 : ℚ) else v i := by
  by_cases hj : j = s.1
  · rw [if_neg (not_not.mpr hj), hj, view_own]
  · rw [if_pos hj]
    funext i
    by_cases hi : i = j
    · subst hi; simp [hj]
    · simp [hi]

/-- Raising an entry is seen, unless it is the own one. -/
theorem view_raise (v : Replica c → ℚ) (j : Replica c) (y : ℚ) :
    (fun i => if i = s.1 then 0 else (if v j < y then Function.update v j y else v) i) =
      if j ≠ s.1 ∧ (if j = s.1 then 0 else v j) < y then
        Function.update (fun i => if i = s.1 then (0 : ℚ) else v i) j y
      else fun i => if i = s.1 then (0 : ℚ) else v i := by
  have hentry := view_entry (s := s) v j y
  by_cases hj : j = s.1
  · have hn : ¬(j ≠ s.1 ∧ (if j = s.1 then 0 else v j) < y) := fun h => h.1 hj
    rw [if_neg (not_not.mpr hj)] at hentry
    rw [if_neg hn]
    by_cases hlt : v j < y
    · simpa only [if_pos hlt] using hentry
    · simp only [if_neg hlt]
  · rw [if_pos hj] at hentry
    simp only [ne_eq, hj, not_false_eq_true, if_false, true_and]
    by_cases hlt : v j < y
    · simpa only [if_pos hlt] using hentry
    · simp only [if_neg hlt]

end Vector

end CCSim
