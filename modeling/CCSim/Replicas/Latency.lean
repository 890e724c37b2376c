/-
# Replication takes time

A PUT notes the time without skew when it gets its lock, and its update carries this time to the
other replicas.  Where an update is installed the source asserts that its latency is positive.  So
it is (`Replicating.latency_pos`), in every run and whatever the clocks are: the handler of the PUT
takes some time, and only the release of its lock sends the update.

A protocol has to show that a PUT notes the time and which updates its handlers pass on
(`Replicating.NotesTime`).
-/
import CCSim.Replicas.Queues

namespace CCSim

open Replication

variable {c : Cluster} {D E σ κ χ : Type} {P : Program (ServerId c) (ClientId c) E σ κ χ}

/-! ## 1. Where updates are -/

/-- The update that an event carries. -/
def Role.carried? : Role c D → Option (ReplicaUpdate (Replica c) D)
  | .update u => some u
  | .install u => some u
  | .leave u => some u
  | _ => none

/-- The update was carried by the event, or had been stamped, or waited in a queue. -/
inductive Replicating.Origin (R : Replicating P D) (s : ServerId c) (st : σ) (e : E)
    (w : ReplicaUpdate (Replica c) D) : Prop
  | event (h : (R.role e).carried? = some w)
  | made {id : ℕ} (hrole : R.role e = .made id) (h : (R.view s st).making id = some w)
  | queue {j : Replica c} (h : w ∈ (R.view s st).queues j)

/-- What a protocol has to show: a PUT notes the time, a PUT that is done sends the update that it
has stamped, and work is about the update of the event or about one of its queue. -/
structure Replicating.NotesTime (R : Replicating P D) : Prop where
  put : ∀ {s t st e r id u}, P.serve s t st e = some r → R.role e = .put id →
    (R.view s r.state).making id = some u → u.updateTimeNoSkew = t
  made : ∀ {s t st e r id y w}, P.serve s t st e = some r → R.role e = .made id →
    y ∈ r.placed s → R.role y.2 = .update w → (R.view s st).making id = some w
  update : ∀ {s t st e r u y w}, P.serve s t st e = some r → R.role e = .update u →
    y ∈ r.placed s → R.role y.2 = .install w → w = u
  install : ∀ {s t st e r u y w}, P.serve s t st e = some r → R.role e = .install u →
    y ∈ r.placed s → R.role y.2 = .leave w → w = u
  leave : ∀ {s t st e r u y w}, P.serve s t st e = some r → R.role e = .leave u →
    y ∈ r.placed s → R.role y.2 = .install w → w ∈ (R.view s st).queues u.sourceReplica

/-- All updates that are on their way were stamped before, and those that are stamped and not sent
yet were stamped before the release that sends them. -/
structure Replicating.Stamped (R : Replicating P D)
    (A : Config (ServerId c) (ClientId c) E σ κ) : Prop where
  task : ∀ x ∈ A.pool, ∀ s e, x.event? = some (s, e) → ∀ w, (R.role e).carried? = some w →
    w.updateTimeNoSkew < A.now
  queue : ∀ s j, ∀ w ∈ (R.view s (A.server s)).queues j, w.updateTimeNoSkew < A.now
  making : ∀ s i w, (R.view s (A.server s)).making i = some w →
    ∀ e u, .release s .mutex R.lock e u ∈ A.pool → w.updateTimeNoSkew < u

/-- Work on a queue goes on with one of its updates. -/
theorem replicaUpdateWork_next {rules : UpdateRules (Replica c)} {store : Store (Replica c) D}
    {queue q : List (ReplicaUpdate (Replica c) D)} {w : ReplicaUpdate (Replica c) D}
    (h : replicaUpdateWork rules store queue = some (q, some w)) : w ∈ queue := by
  induction queue with
  | nil => cases h
  | cons u queue ih =>
    unfold replicaUpdateWork at h
    split at h
    · cases h
    split at h
    · split at h
      · split at h
        · cases h
        · exact List.mem_cons_of_mem _ (ih h)
      · split at h <;> cases h
        exact List.mem_cons_self
    · cases h
      exact List.mem_cons_self

/-- Work that an update starts is work on this update. -/
theorem replicaUpdateEnqueue_next {rules : UpdateRules (Replica c)} {store : Store (Replica c) D}
    {queue q : List (ReplicaUpdate (Replica c) D)} {u w : ReplicaUpdate (Replica c) D}
    (h : replicaUpdateEnqueue rules store queue u = some (q, some w)) : w = u := by
  unfold replicaUpdateEnqueue at h
  split at h
  · exact List.mem_singleton.mp (replicaUpdateWork_next h)
  · cases h

theorem replicaUpdateDequeue_next {rules : UpdateRules (Replica c)} {store : Store (Replica c) D}
    {queue q : List (ReplicaUpdate (Replica c) D)} {u w : ReplicaUpdate (Replica c) D}
    (h : replicaUpdateDequeue rules store queue u = some (q, some w)) : w ∈ queue := by
  unfold replicaUpdateDequeue at h
  split at h
  · cases h
  · split at h
    · exact List.mem_cons_of_mem _ (replicaUpdateWork_next h)
    · cases h

variable {R : Replicating P D} {A A₀ : Config (ServerId c) (ClientId c) E σ κ}
  {h : List (Act (ServerId c) (ClientId c) E σ κ)} {C : Cond (ServerId c) (ClientId c) E σ κ}

theorem Role.job_of_carried {role : Role c D} {w : ReplicaUpdate (Replica c) D} (r : Replica c)
    (h : role.carried? = some w) : role = .update w ∧ role.job r = some (.update r w.stored) ∨
      role = .install w ∧ role.job r = some (.install r w.stored) ∨
      role = .leave w ∧ role.job r = some (.leave r w.stored) := by
  cases role with
  | update u =>
    cases h
    exact .inl ⟨rfl, rfl⟩
  | install u =>
    cases h
    exact .inr (.inl ⟨rfl, rfl⟩)
  | leave u =>
    cases h
    exact .inr (.inr ⟨rfl, rfl⟩)
  | _ => cases h

/-- An update is to be installed when one has arrived or has left its queue. -/
theorem Move.install_mem {rules : UpdateRules (Replica c)} {r : Replica c} {clock : ℚ}
    {role : Role c D} {l l' : ReplicaState c D}
    {jobs : Multiset (Replication.Job (Stored c D) (Replica c) ℚ)}
    (hm : Move rules r clock role l l' jobs) {q : Replica c} {v : Stored c D}
    (hv : .install q v ∈ jobs) : (∃ u, role = .update u) ∨ ∃ u, role = .leave u := by
  cases hm with
  | update => exact .inl ⟨_, rfl⟩
  | leave => exact .inr ⟨_, rfl⟩
  | made =>
    obtain ⟨_, -, h⟩ := Replication.mem_updates.mp hv
    cases h
  | promise | tick =>
    obtain ⟨_, -, h⟩ := Replication.mem_beats.mp hv
    cases h
  | beat b => cases b <;> simp at hv
  | install => cases Multiset.mem_singleton.mp hv
  | _ => cases hv

/-- A handler makes up no updates. -/
theorem Replicating.NotesTime.origin (hR : R.NotesTime) {s s' : ServerId c} {t u : ℚ} {st : σ}
    {e e' : E} {r : Outcome (ServerId c) (ClientId c) E σ}
    {x : Task (ServerId c) (ClientId c) E} {w : ReplicaUpdate (Replica c) D}
    (hr : P.serve s t st e = some r) (hx : x ∈ r.tasks s u) (he : x.event? = some (s', e'))
    (hw : (R.role e').carried? = some w) : R.Origin s st e w := by
  have hplaced : (.inl s', e') ∈ r.placed s := by
    rw [← Outcome.filterMap_tasks (u := u)]
    exact List.mem_filterMap.mpr ⟨x, hx, Task.placed?_of_event? he⟩
  obtain ⟨jobs, hm, hjobs⟩ := R.move hr
  -- what carries an update is a job of the machine
  have hjob : ∀ a, (R.role e').job s'.1 = some a → a ∈ jobs := by
    intro a ha
    have hmem : a ∈ ((r.tasks s u : List _) : Multiset _).filterMap (Task.job R.role s'.2) := by
      refine (Multiset.mem_filterMap _ _).mpr ⟨x, hx, ?_⟩
      rw [Task.job, he, Option.bind_some, if_pos rfl, ha]
    rw [hjobs] at hmem
    split at hmem
    · exact hmem
    · cases hmem
  rcases Role.job_of_carried s'.1 hw with ⟨hrole, ha⟩ | ⟨hrole, ha⟩ | ⟨hrole, ha⟩
  · obtain ⟨id, -, he, -⟩ := hm.update_mem (hjob _ ha)
    exact .made he (hR.made hr he hplaced hrole)
  · rcases hm.install_mem (hjob _ ha) with ⟨v, he⟩ | ⟨v, he⟩
    · rw [hR.update hr he hplaced hrole]
      exact .event (by rw [he]; rfl)
    · exact .queue (hR.leave hr he hplaced hrole)
  · obtain ⟨-, v, he, -⟩ := hm.leave_mem (hjob _ ha)
    rw [hR.install hr he hplaced hrole]
    exact .event (by rw [he]; rfl)

/-- In a queue there is what was there before, and what arrives. -/
theorem Move.mem_queue {rules : UpdateRules (Replica c)} {r : Replica c} {clock : ℚ}
    {role : Role c D} {l l' : ReplicaState c D}
    {jobs : Multiset (Replication.Job (Stored c D) (Replica c) ℚ)}
    (hm : Move rules r clock role l l' jobs) {j : Replica c} {w : ReplicaUpdate (Replica c) D}
    (hw : w ∈ l'.queues j) : w ∈ l.queues j ∨ role.carried? = some w := by
  rcases List.mem_append.mp ((hm.queue j).subset hw) with hw | hw
  · exact .inl hw
  · right
    unfold Role.incoming at hw
    split at hw
    · split at hw
      · rw [List.mem_singleton.mp hw]
        rfl
      · cases hw
    · cases hw

/-! ## 2. Every run -/

/-- An update that a handler passes on was stamped before. -/
theorem Replicating.Stamped.origin (hA : R.Stamped A) (hE : Exclusive R.kind A) {s : ServerId c}
    {t : ℚ} {x : Task (ServerId c) (ClientId c) E} {e : E} {tb : LockTable} (hx : x ∈ A.pool)
    (ht : A.now ≤ t) (hready : Ready s t (A.locks s) x e tb) {w : ReplicaUpdate (Replica c) D}
    (hw : R.Origin s (A.server s) e w) : w.updateTimeNoSkew < t := by
  cases hw with
  | event h => exact (hA.task x hx s e hready.event? w h).trans_le ht
  | made hrole h =>
    obtain ⟨u, rfl⟩ := hready.released (hE.placed x hx) (R.kind_made hrole)
    have hle : u ≤ t := by
      cases hready
      assumption
    exact (hA.making s _ w h _ u hx).trans_le hle
  | queue h => exact (hA.queue s _ w h).trans_le ht

/-- **The step lemma.** -/
theorem Replicating.Stamped.serve (hR : R.NotesTime) (hA : R.Stamped A) (hE : Exclusive R.kind A)
    (hmaking : ∀ s i, (R.view s (A.server s)).making i ≠ none → (A.locks s).mutex R.lock = true)
    {s : ServerId c} {t : ℚ} {x : Task (ServerId c) (ClientId c) E} {e : E} {tb : LockTable}
    {r : Outcome (ServerId c) (ClientId c) E σ} {rest : Multiset (Task (ServerId c) (ClientId c) E)}
    {new : List (Task (ServerId c) (ClientId c) E)} (hpool : A.pool = x ::ₘ rest) (ht : A.now ≤ t)
    (hready : Ready s t (A.locks s) x e tb) (hr : P.serve s t (A.server s) e = some r)
    (hnew : Spawns s t r new) : R.Stamped (A.served s t r tb rest new) := by
  obtain ⟨u, hu, hstrict, rfl⟩ := hnew
  have hx : x ∈ A.pool := hpool ▸ Multiset.mem_cons_self _ _
  have hrest : ∀ {y}, y ∈ rest → y ∈ A.pool := fun hy => hpool ▸ Multiset.mem_cons_of_mem hy
  obtain ⟨jobs, hm, -⟩ := R.move hr
  have hplaced := hE.placed x hx
  refine ⟨fun y hy s' e' he' w hw => ?_, fun s' j w hw => ?_, fun s' i w hw e' u' hy => ?_⟩
  · rcases Multiset.mem_add.mp hy with hy | hy
    · exact (hA.task y (hrest hy) s' e' he' w hw).trans_le ht
    · exact hA.origin hE hx ht hready (hR.origin hr (Multiset.mem_coe.mp hy) he' hw)
  · simp only [Config.served] at hw ⊢
    by_cases hs : s' = s
    · subst hs
      rw [Function.update_self] at hw
      rcases hm.mem_queue hw with hw | hw
      · exact (hA.queue s' j w hw).trans_le ht
      · exact hA.origin hE hx ht hready (.event hw)
    · rw [Function.update_of_ne hs] at hw
      exact (hA.queue s' j w hw).trans_le ht
  · simp only [Config.served] at hw hy
    by_cases hs : s' = s
    · subst hs
      rw [Function.update_self] at hw
      -- a handler that gives the lock back found no version being made
      have hfree : ∀ {e''}, r.cont = .unlock .mutex R.lock e'' →
          (A.locks s').mutex R.lock = false := fun hcont =>
        (hready.granted hplaced (R.disciplined.unlock hr hcont).1).1
      rcases Multiset.mem_add.mp hy with hy | hy
      · rcases hm.making_some hw with hsame | ⟨⟨id, hput⟩, -⟩
        · exact hA.making s' i w hsame e' u' (hrest hy)
        · exact absurd (hrest hy) (hE.not_mem (hready.granted hplaced (R.kind_put hput)).1 e' u')
      · obtain ⟨-, rfl, hcont⟩ := Outcome.release_mem_tasks.mp (Multiset.mem_coe.mp hy)
        rcases hm.making (by rw [hw]; rintro ⟨⟩) with ⟨hold, -⟩ | hput
        · rw [hmaking s' i hold] at hfree
          cases hfree hcont
        · rw [hR.put hr hput hw]
          exact hstrict (R.put hr hput).1
    · rw [Function.update_of_ne hs] at hw
      rcases Multiset.mem_add.mp hy with hy | hy
      · exact hA.making s' i w hw e' u' (hrest hy)
      · exact absurd (Outcome.release_mem_tasks.mp (Multiset.mem_coe.mp hy)).1 hs

/-- Whoever makes a version holds the lock. -/
theorem Replicating.making_locked (h0 : R.Fresh A₀) (hr : Run P C A₀ A h) (s : ServerId c) (i : ℕ)
    (hi : (R.view s (A.server s)).making i ≠ none) : (A.locks s).mutex R.lock = true := by
  obtain ⟨floor, promised, hT⟩ := Replicating.tracks h0 (R.enforces_noDiscipline C) hr s.2
  obtain ⟨e, u, hm, -⟩ := hT.making s.1 i hi
  by_contra hfree
  exact (hr.exclusive R.disciplined h0.exclusive).not_mem (Bool.eq_false_iff.mpr hfree) _ u hm

/-- **Every update that is on its way was stamped before.** -/
theorem Replicating.stamped (hR : R.NotesTime) (h0 : R.Fresh A₀) (hr : Run P C A₀ A h) :
    R.Stamped A := by
  induction hr with
  | nil =>
    refine ⟨fun x hx s e he w hw => ?_, fun s j w hw => ?_, fun s i w hw => ?_⟩
    · obtain ⟨a, ha⟩ : ∃ a, (R.role e).job s.1 = some a := by
        rcases Role.job_of_carried s.1 hw with ⟨-, ha⟩ | ⟨-, ha⟩ | ⟨-, ha⟩ <;> exact ⟨_, ha⟩
      have hjob := R.job_mem hx he ha
      rw [h0.jobs] at hjob
      exact absurd hjob (Multiset.notMem_zero a)
    · rw [h0.view s] at hw
      cases hw
    · rw [h0.view s] at hw
      cases hw
  | @cons A A' h a hrun hstep _ ih =>
    have hsub : ∀ {A' : Config (ServerId c) (ClientId c) E σ κ}, (∀ x ∈ A'.pool, x ∈ A.pool ∨
        ∃ k o, R.role (Out.event o) = .other ∧ x = o.taskOfClient k) → A'.server = A.server →
          A.now ≤ A'.now → R.Stamped A' := by
      intro A' hpool hserver hnow
      refine ⟨fun x hx s e he w hw => ?_, fun s j w hw => ?_, fun s i w hw e u hu => ?_⟩
      · rcases hpool x hx with hx | ⟨k, o, hother, rfl⟩
        · exact (ih.task x hx s e he w hw).trans_le hnow
        · have hevent : o.event = e := by
            cases o <;> cases he
            rfl
          rw [← hevent, hother] at hw
          cases hw
      · exact (ih.queue s j w (hserver ▸ hw)).trans_le hnow
      · rcases hpool _ hu with hu | ⟨k, o, -, ho⟩
        · exact ih.making s i w (hserver ▸ hw) e u hu
        · cases o <;> cases ho
    cases hstep with
    | serve hpool ht hx hserve hnew =>
      exact ih.serve hR (hrun.exclusive R.disciplined h0.exclusive)
        (Replicating.making_locked h0 hrun) hpool ht hx hserve hnew
    | release hpool ht =>
      exact hsub (fun x hx => .inl (hpool ▸ Multiset.mem_cons_of_mem hx)) rfl ht
    | client hpool ht hasked =>
      refine hsub (fun x hx => ?_) rfl ht
      rcases Multiset.mem_add.mp hx with hx | hx
      · exact .inl (hpool ▸ Multiset.mem_cons_of_mem hx)
      · obtain ⟨o, ho, rfl⟩ := List.mem_map.mp (Multiset.mem_coe.mp hx)
        exact .inr ⟨_, o, R.client hasked o ho, rfl⟩
    | wait ht => exact hsub (fun x hx => .inl hx) rfl ht

/-- **Latencies are positive**: an update that is to be installed was made before. -/
theorem Replicating.latency_pos (hR : R.NotesTime) (h0 : R.Fresh A₀) (hr : Run P C A₀ A h)
    {x : Task (ServerId c) (ClientId c) E} (hx : x ∈ A.pool) {s : ServerId c} {e : E}
    (he : x.event? = some (s, e)) {u : ReplicaUpdate (Replica c) D} (hu : R.role e = .install u)
    {t : ℚ} (ht : A.now ≤ t) : 0 < t - u.updateTimeNoSkew := by
  have hlt := (Replicating.stamped hR h0 hr).task x hx s e he u (by rw [hu]; rfl)
  linarith

/-- An update that is to be installed is held here. -/
theorem Replicating.install_owns (h0 : R.Fresh A₀) (hr : Run P C A₀ A h)
    {x : Task (ServerId c) (ClientId c) E} (hx : x ∈ A.pool) {s : ServerId c} {e : E}
    (he : x.event? = some (s, e)) {u : ReplicaUpdate (Replica c) D} (hu : R.role e = .install u) :
    ownsKey s u.key = true := by
  obtain ⟨floor, promised, hT⟩ := Replicating.tracks h0 (R.enforces_noDiscipline C) hr s.2
  have hb := Reachable.basic hT.reachable
  have hjob : Job.install s.1 u.stored ∈ R.jobs s.2 A := R.job_mem hx he (by rw [hu]; rfl)
  have hfront := List.mem_of_mem_head? (hb.front s.1 u.stored (.inl hjob))
  obtain ⟨hsrc, hne, hmem⟩ := hb.queue _ _ _ hfront
  have howns := (hT.admissible h0 hr (u := u) ⟨hne, hmem⟩).2.1
  rwa [R.rules_owns] at howns

end CCSim
