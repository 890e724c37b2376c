/-
# A run of a protocol that replicates versions is a run of the machine

Every run of a task pool whose program is `Replicating` is, for each partition, a run of the
machine of `Lib/Replication.lean`, under the discipline that the conditions on the run enforce
(`Replicating.Allowed`).  The invariant that carries this is `Replicating.Tracked`: besides the
machine's state it says where the bounds on accepted and on promised times stand, which needs
mutual exclusion: the lock is held from the PUT that stamps a version until the version is sent.
-/
import CCSim.Replicas.Moves

namespace CCSim

open Replication

variable {c : Cluster} {D E σ κ χ : Type}

/-! ## 1. A run of the protocol is a run of the machine -/

section Runs

variable {P : Program (ServerId c) (ClientId c) E σ κ χ} (R : Replicating P D)

/-- The handler calls that keep the machine's discipline. -/
def Replicating.Allowed (d : Discipline) : Cond (ServerId c) (ClientId c) E σ κ
  | _, .client _ _ _ _ _ => True
  | v, .server s t e st r =>
    match R.role e with
    | .put _ =>
      (d.afterBeats → ∀ t' e' st' r', .server s t' e' st' r' ∈ v.past → R.role e' = .promise →
        t' < t) ∧ (d.noTie → ¬Ties (R.view s st).store (R.view s r.state).store)
    | .install _ => d.noTie → ¬Ties (R.view s st).store (R.view s r.state).store
    | .update u =>
      (d.inOrder → ∀ e' u', v.pending s e' → R.role e' = .update u' →
        u'.sourceReplica = u.sourceReplica → u.updateTime ≤ u'.updateTime) ∧
      (d.noStall → (R.view s st).queues u.sourceReplica = [] →
        ¬Stalls (R.rules s) (R.view s st).store [u])
    | .leave u => d.noStall →
      ¬Stalls (R.rules s) (R.view s st).store ((R.view s st).queues u.sourceReplica).tail
    | .beat j y => d.beatsInOrder → ∀ e' u', v.pending s e' → R.role e' = .update u' →
      u'.sourceReplica = j → y < u'.updateTime
    | .raise j y => d.noPassing → ∀ u ∈ (R.view s st).queues j,
      y < u.updateTime ∨ u.updateTime ≤ (R.view s st).versionVector j
    | _ => True

/-- A condition that makes handler calls keep the discipline. -/
def Replicating.Enforces (C : Cond (ServerId c) (ClientId c) E σ κ) (d : Discipline) : Prop :=
  ∀ v s t e st r, P.serve s t st e = some r → C v (.server s t e st r) →
    R.Allowed d v (.server s t e st r)

/-- The replicas of a partition. -/
def Replicating.replicas (p : Partition c) (A : Config (ServerId c) (ClientId c) E σ κ)
    (r : Replica c) : ReplicaState c D :=
  R.view (r, p) (A.server (r, p))

def Replicating.jobs (p : Partition c) (A : Config (ServerId c) (ClientId c) E σ κ) :
    Multiset (Job (Stored c D) (Replica c) ℚ) :=
  A.pool.filterMap (Task.job R.role p)

/-- `Tracked d p A h floor promised`: after the handler calls `h`, the replicas of partition `p`
are in a state that the machine can reach, with these bounds; and the bounds are what they should
be, given who holds the lock. -/
structure Replicating.Tracked (d : Discipline) (p : Partition c)
    (A : Config (ServerId c) (ClientId c) E σ κ) (h : List (Act (ServerId c) (ClientId c) E σ κ))
    (floor promised : Replica c → ℚ) : Prop where
  reachable : Reachable d (assemble (R.replicas p A) floor promised (R.jobs p A))
  now_pos : 0 < A.now
  floor_free : ∀ r, (A.locks (r, p)).mutex R.lock = false → floor r < c.clock (r, p) A.now
  floor_ready : ∀ r e u, .release (r, p) .mutex R.lock e u ∈ A.pool → floor r < c.clock (r, p) u
  promised_le : ∀ r, promised r ≤ c.clock (r, p) A.now
  promised_past : ∀ r, promised r = 0 ∨ ∃ t e st o, .server (r, p) t e st o ∈ h ∧
    R.role e = .promise ∧ promised r = c.clock (r, p) t
  making : ∀ r i, (R.replicas p A r).making i ≠ none → ∃ e u,
    .release (r, p) .mutex R.lock (some e) u ∈ A.pool ∧ R.role e = .made i

variable {R}

/-- The job of a task in the pool. -/
theorem Replicating.job_mem {A : Config (ServerId c) (ClientId c) E σ κ} {s : ServerId c} {e : E}
    {x : Task (ServerId c) (ClientId c) E} (hx : x ∈ A.pool) (he : x.event? = some (s, e))
    {a : Job (Stored c D) (Replica c) ℚ} (ha : (R.role e).job s.1 = some a) :
    a ∈ R.jobs s.2 A := by
  refine (Multiset.mem_filterMap _ _).mpr ⟨x, hx, ?_⟩
  rw [Task.job, he, Option.bind_some, if_pos rfl, ha]

theorem clock_mono (s : ServerId c) {t u : ℚ} (h : t ≤ u) : c.clock s t ≤ c.clock s u := by
  unfold Cluster.clock
  linarith

theorem clock_lt (s : ServerId c) {t u : ℚ} (h : t < u) : c.clock s t < c.clock s u := by
  unfold Cluster.clock
  linarith

theorem clock_pos (s : ServerId c) {t : ℚ} (h : 0 < t) : 0 < c.clock s t := by
  have := c.offset_nonneg s.1 s.2
  unfold Cluster.clock
  linarith

variable {d : Discipline} {p : Partition c}
  {A A' : Config (ServerId c) (ClientId c) E σ κ}
  {h : List (Act (ServerId c) (ClientId c) E σ κ)} {floor promised : Replica c → ℚ}

/-- Time passing keeps a bound. -/
theorem Replicating.Tracked.wait (hT : R.Tracked d p A h floor promised) {t : ℚ} (ht : A.now ≤ t) :
    R.Tracked d p { A with now := t } h floor promised where
  reachable := hT.reachable
  now_pos := hT.now_pos.trans_le ht
  floor_free r hr := (hT.floor_free r hr).trans_le (clock_mono _ ht)
  floor_ready := hT.floor_ready
  promised_le r := (hT.promised_le r).trans (clock_mono _ ht)
  promised_past := hT.promised_past
  making := hT.making

/-- Giving back a lock. -/
theorem Replicating.Tracked.release (hT : R.Tracked d p A h floor promised) {s : ServerId c}
    {t ready : ℚ} {m : Mode} {id : ℕ} {tb : LockTable}
    {rest : Multiset (Task (ServerId c) (ClientId c) E)}
    (hpool : A.pool = .release s m id none ready ::ₘ rest) (ht : A.now ≤ t) (hready : ready ≤ t)
    (hl : (A.locks s).release? m id = some tb) :
    R.Tracked d p { A with now := t, locks := Function.update A.locks s tb, pool := rest } h floor
      promised := by
  have hjobs : R.jobs p A = rest.filterMap (Task.job R.role p) := by
    rw [Replicating.jobs, hpool, Multiset.filterMap_cons_none _ _ rfl]
  have hmem : ∀ x ∈ rest, x ∈ A.pool := fun x hx => by rw [hpool]; exact Multiset.mem_cons_of_mem hx
  refine ⟨?_, hT.now_pos.trans_le ht, ?_, fun r e u hm => hT.floor_ready r e u (hmem _ hm), 
    fun r => (hT.promised_le r).trans (clock_mono _ ht), hT.promised_past, ?_⟩
  · have := hT.reachable
    rwa [hjobs] at this
  · intro r hr
    dsimp only at hr
    by_cases hs : (r, p) = s
    · subst hs
      rw [Function.update_self] at hr
      have hmut := LockTable.release?_mutex hl R.lock
      by_cases hc : m = .mutex ∧ R.lock = id
      · obtain ⟨rfl, rfl⟩ := hc
        have hm : Task.release (r, p) .mutex R.lock none ready ∈ A.pool := by
          rw [hpool]
          exact Multiset.mem_cons_self _ _
        exact (hT.floor_ready r none ready hm).trans_le (clock_mono _ hready)
      · rw [if_neg hc] at hmut
        exact (hT.floor_free r (hmut ▸ hr)).trans_le (clock_mono _ ht)
    · rw [Function.update_of_ne hs] at hr
      exact (hT.floor_free r hr).trans_le (clock_mono _ ht)
  · intro r i hi
    obtain ⟨e, u, hm, he⟩ := hT.making r i hi
    rw [hpool] at hm
    rcases Multiset.mem_cons.mp hm with hm | hm
    · cases hm
    · exact ⟨e, u, hm, he⟩


section Serve

variable {s : ServerId c} {t : ℚ} {x : Task (ServerId c) (ClientId c) E} {e : E} {tb : LockTable}
  {r : Outcome (ServerId c) (ClientId c) E σ} {rest : Multiset (Task (ServerId c) (ClientId c) E)}
  {new : List (Task (ServerId c) (ClientId c) E)}

/-- The configuration after a handler call. -/
def Config.served (A : Config (ServerId c) (ClientId c) E σ κ) (s : ServerId c) (t : ℚ)
    (r : Outcome (ServerId c) (ClientId c) E σ) (tb : LockTable)
    (rest : Multiset (Task (ServerId c) (ClientId c) E))
    (new : List (Task (ServerId c) (ClientId c) E)) : Config (ServerId c) (ClientId c) E σ κ :=
  { A with now := t, server := Function.update A.server s r.state,
           locks := Function.update A.locks s tb, pool := rest + (new : Multiset _) }

/-- What is left to show for a handler call: that the machine follows, and where the bounds and
the versions that are being made come from. -/
theorem Replicating.Tracked.serve (hT : R.Tracked d p A h floor promised)
    (hE : Exclusive R.kind A) (hpool : A.pool = x ::ₘ rest) (ht : A.now ≤ t)
    (hx : Ready s t (A.locks s) x e tb) (hr : P.serve s t (A.server s) e = some r)
    (hnew : Spawns s t r new) {floor' promised' : Replica c → ℚ}
    (hreach : Reachable d (assemble (R.replicas p (A.served s t r tb rest new)) floor' promised'
      (R.jobs p (A.served s t r tb rest new))))
    (hfloor : ∀ q, floor' q = floor q ∨
      (q, p) = s ∧ (∃ id, R.role e = .put id) ∧ floor' q = c.clock s t)
    (hprom : ∀ q, promised' q = promised q ∨
      (q, p) = s ∧ R.role e = .promise ∧ promised' q = c.clock s t)
    (hmaking : ∀ q i, (R.replicas p (A.served s t r tb rest new) q).making i ≠ none →
      (R.replicas p A q).making i ≠ none ∧ ((q, p) = s → R.role e ≠ .made i) ∨
        (q, p) = s ∧ R.role e = .put i) :
    R.Tracked d p (A.served s t r tb rest new) (.server s t e (A.server s) r :: h) floor'
      promised' := by
  obtain ⟨u, hu, hstrict, rfl⟩ := hnew
  have hplaced : WellPlaced R.kind x :=
    hE.placed x (by rw [hpool]; exact Multiset.mem_cons_self _ _)
  have hmem : ∀ y ∈ rest, y ∈ A.pool := fun y hy => by
    rw [hpool]; exact Multiset.mem_cons_of_mem hy
  -- a release that is left behind gives back the lock the event ran under
  have hlocked : ∀ {e' u'}, Task.release s .mutex R.lock e' u' ∈ r.tasks s u →
      u' = u ∧ (A.locks s).mutex R.lock = false := fun hm => by
    obtain ⟨-, rfl, hc⟩ := Outcome.release_mem_tasks.mp hm
    exact ⟨rfl, (hx.granted hplaced (R.disciplined.unlock hr hc).1).1⟩
  refine ⟨hreach, hT.now_pos.trans_le ht, ?_, ?_, ?_, ?_, ?_⟩
  · intro q hq
    dsimp only [Config.served] at hq ⊢
    by_cases hs : (q, p) = s
    · subst hs
      rw [Function.update_self] at hq
      rcases hfloor q with hf | ⟨-, ⟨id, hid⟩, -⟩
      · rw [hf]
        rcases hx.mutex_free hq with hq | ⟨ready, hle, rfl⟩
        · exact (hT.floor_free q hq).trans_le (clock_mono _ ht)
        · have hm : Task.release (q, p) .mutex R.lock (some e) ready ∈ A.pool := by
            rw [hpool]
            exact Multiset.mem_cons_self _ _
          exact (hT.floor_ready q (some e) ready hm).trans_le (clock_mono _ hle)
      · rw [(hx.granted hplaced (R.kind_put hid)).2] at hq
        cases hq
    · rw [Function.update_of_ne hs] at hq
      rcases hfloor q with hf | ⟨hs', -⟩
      · rw [hf]
        exact (hT.floor_free q hq).trans_le (clock_mono _ ht)
      · exact absurd hs' hs
  · intro q e' u' hm
    rcases Multiset.mem_add.mp hm with hold | hm
    · rcases hfloor q with hf | ⟨rfl, ⟨id, hid⟩, -⟩
      · rw [hf]
        exact hT.floor_ready q e' u' (hmem _ hold)
      · exact absurd (hmem _ hold) (hE.not_mem (hx.granted hplaced (R.kind_put hid)).1 e' u')
    · obtain ⟨hs, -, -⟩ := Outcome.release_mem_tasks.mp (Multiset.mem_coe.mp hm)
      rw [hs] at hm ⊢
      obtain ⟨rfl, hfree⟩ := hlocked (Multiset.mem_coe.mp hm)
      rcases hfloor q with hf | ⟨-, ⟨id, hid⟩, hf⟩
      · rw [hf]
        exact (hs ▸ hT.floor_free q (hs ▸ hfree)).trans_le (clock_mono _ (ht.trans hu))
      · rw [hf]
        exact clock_lt _ (hstrict (R.put hr hid).1)
  · intro q
    rcases hprom q with hf | ⟨rfl, -, hf⟩
    · rw [hf]
      exact (hT.promised_le q).trans (clock_mono _ ht)
    · exact hf.le
  · intro q
    rcases hprom q with hf | ⟨rfl, hrole, hf⟩
    · rw [hf]
      exact (hT.promised_past q).imp id fun ⟨t', e', st', o, hm, hrest⟩ =>
        ⟨t', e', st', o, List.mem_cons_of_mem _ hm, hrest⟩
    · exact .inr ⟨t, e, _, r, List.mem_cons_self, hrole, hf⟩
  · intro q i hi
    rcases hmaking q i hi with ⟨hm, hne⟩ | ⟨rfl, hrole⟩
    · obtain ⟨e', u', hm, he'⟩ := hT.making q i hm
      rw [hpool] at hm
      rcases Multiset.mem_cons.mp hm with hm | hm
      · subst hm
        cases hx
        exact absurd he' (hne rfl)
      · exact ⟨e', u', Multiset.mem_add.mpr (.inl hm), he'⟩
    · obtain ⟨-, e', hc, he'⟩ := R.put hr hrole
      exact ⟨e', u, Multiset.mem_add.mpr (.inr (Outcome.release_mem_tasks.mpr ⟨rfl, rfl, hc⟩)), he'⟩

theorem replicas_served (q : Replica c) :
    R.replicas p (A.served s t r tb rest new) q =
      if (q, p) = s then R.view s r.state else R.replicas p A q := by
  unfold Replicating.replicas Config.served
  by_cases hs : (q, p) = s
  · subst hs; simp
  · simp [hs]

theorem replicas_served_self :
    R.replicas s.2 (A.served s t r tb rest new) =
      Function.update (R.replicas s.2 A) s.1 (R.view s r.state) := by
  funext q
  rw [replicas_served, Function.update_apply]
  exact if_congr ⟨fun hq => congrArg Prod.fst hq, fun hq => by rw [hq]⟩ rfl rfl

/-- The jobs left after a handler call. -/
theorem jobs_served (hnew : Spawns s t r new) {jobs : Multiset (Job (Stored c D) (Replica c) ℚ)}
    (hjobs : ∀ u p, ((r.tasks s u : List _) : Multiset _).filterMap (Task.job R.role p) =
      if p = s.2 then jobs else 0) :
    R.jobs p (A.served s t r tb rest new) =
      rest.filterMap (Task.job R.role p) + if p = s.2 then jobs else 0 := by
  obtain ⟨u, -, -, rfl⟩ := hnew
  rw [← hjobs u p]
  exact Multiset.filterMap_add _ _ _

/-- While the lock is free, nothing is being made. -/
theorem Replicating.Tracked.making_free (hT : R.Tracked d p A h floor promised)
    (hE : Exclusive R.kind A) {q : Replica c} (hf : (A.locks (q, p)).mutex R.lock = false) (i : ℕ) :
    (R.replicas p A q).making i = none := by
  by_contra hi
  obtain ⟨e, u, hm, -⟩ := hT.making q i hi
  exact hE.not_mem hf _ _ hm

/-- What is being made is made by the event that comes with the release of the lock. -/
theorem Replicating.Tracked.making_released (hT : R.Tracked d p A h floor promised)
    (hE : Exclusive R.kind A) {q : Replica c} {ready : ℚ}
    (hpool : A.pool = .release (q, p) .mutex R.lock (some e) ready ::ₘ rest) (i : ℕ)
    (hi : (R.replicas p A q).making i ≠ none) : R.role e = .made i := by
  obtain ⟨e', u, hm, he⟩ := hT.making q i hi
  rw [hpool] at hm
  rcases Multiset.mem_cons.mp hm with hm | hm
  · cases hm
    exact he
  · exact absurd hm (hE.not_mem_rest hpool _ _)

/-- An update that nobody has looked at is pending. -/
theorem Replicating.update_pending {tasks : Multiset (Task (ServerId c) (ClientId c) E)}
    (hp : ∀ y ∈ tasks, WellPlaced R.kind y) {q : Replica c} {w : Stored c D}
    (hw : Job.update q w ∈ tasks.filterMap (Task.job R.role p)) :
    ∃ e u, .pending (q, p) e ∈ tasks ∧ R.role e = .update u ∧ u.stored = w := by
  obtain ⟨y, hy, hyw⟩ := (Multiset.mem_filterMap _ _).mp hw
  obtain ⟨⟨s, e⟩, he, hj⟩ := Option.bind_eq_some_iff.mp hyw
  dsimp only at hj
  split at hj
  · rename_i hs
    cases hrole : R.role e with
    | update u =>
      rw [hrole] at hj
      simp only [Role.job, Option.some.injEq, Job.update.injEq] at hj
      have hk := R.kind_update hrole
      have hyp := hp y hy
      obtain rfl : s = (q, p) := Prod.ext hj.1 hs
      cases y with
      | pending =>
        cases he
        exact ⟨e, u, hy, hrole, hj.2⟩
      | request => cases he; cases hk.symm.trans hyp
      | release _ _ _ e' =>
        cases e' <;> cases he
        cases hk.symm.trans (hyp _ rfl)
      | client => cases he
    | _ =>
      rw [hrole] at hj
      cases hj
  · cases hj

/-- **One handler call** that the discipline allows is a step of the machine, or none. -/
theorem Replicating.Tracked.move (hT : R.Tracked d s.2 A h floor promised)
    (hE : Exclusive R.kind A) (hpool : A.pool = x ::ₘ rest) (ht : A.now ≤ t)
    (hx : Ready s t (A.locks s) x e tb) (hr : P.serve s t (A.server s) e = some r)
    (hnew : Spawns s t r new) (hC : R.Allowed d (A.view h) (.server s t e (A.server s) r)) :
    ∃ floor' promised', R.Tracked d s.2 (A.served s t r tb rest new)
      (.server s t e (A.server s) r :: h) floor' promised' := by
  obtain ⟨jobs, hmove, hjobs⟩ := R.move hr
  change Move (R.rules s) s.1 (c.clock s t) (R.role e) (R.replicas s.2 A s.1) (R.view s r.state)
    jobs at hmove
  have hplaced : WellPlaced R.kind x :=
    hE.placed x (by rw [hpool]; exact Multiset.mem_cons_self _ _)
  have hjob : Task.job R.role s.2 x = (R.role e).job s.1 := by
    unfold Task.job
    rw [hx.event?, Option.bind_some, if_pos rfl]
  have hfree : ∀ {id}, R.role e = .put id → (A.locks s).mutex R.lock = false := fun hid =>
    (hx.granted hplaced (R.kind_put hid)).1
  -- a version that is being made when an event runs that comes with the release is made by it
  have hreleased : R.kind e = .unlocked .mutex R.lock → ∀ i,
      (R.replicas s.2 A s.1).making i ≠ none → R.role e = .made i := fun hk => by
    obtain ⟨ready, rfl⟩ := hx.released hplaced hk
    exact hT.making_released hE hpool
  have hpending : ∀ w, Job.update s.1 w ∈ rest.filterMap (Task.job R.role s.2) →
      ∃ e' u, (A.view h).pending s e' ∧ R.role e' = .update u ∧ u.stored = w := fun w hw => by
    have hin : ∀ y ∈ rest, y ∈ A.pool := fun y hy => by
      rw [hpool]
      exact Multiset.mem_cons_of_mem hy
    obtain ⟨e', u, hp, hrest⟩ := Replicating.update_pending (fun y hy => hE.placed y (hin y hy)) hw
    exact ⟨e', u, hin _ hp, hrest⟩
  have hallowed : (R.role e).Allowed d (R.rules s) s.1 (c.clock s t) (floor s.1) (promised s.1)
      (rest.filterMap (Task.job R.role s.2)) (R.replicas s.2 A s.1) (R.view s r.state) := by
    simp only [Replicating.Allowed] at hC
    cases hrole : R.role e with
    | put id =>
      rw [hrole] at hC
      refine ⟨hT.making_free hE (hfree hrole),
        (hT.floor_free s.1 (hfree hrole)).trans_le (clock_mono _ ht), fun hd => ?_, hC.2⟩
      rcases hT.promised_past s.1 with h0 | ⟨t', e', st', o, hm, he', hp⟩
      · rw [h0]
        exact clock_pos s (hT.now_pos.trans_le ht)
      · rw [hp]
        exact clock_lt s (hC.1 hd t' e' st' o hm he')
    | promise =>
      refine ⟨fun i => ?_, (hT.promised_le s.1).trans (clock_mono _ ht)⟩
      by_contra hi
      cases (hreleased (R.kind_promise hrole) i hi).symm.trans hrole
    | update u =>
      rw [hrole] at hC
      refine ⟨fun hd w hw hs => ?_, hC.2⟩
      obtain ⟨e', u', hp, hu', rfl⟩ := hpending w hw
      exact hC.1 hd e' u' hp hu' hs
    | beat j y =>
      rw [hrole] at hC
      intro hd w hw hs
      obtain ⟨e', u', hp, hu', rfl⟩ := hpending w hw
      exact hC hd e' u' hp hu' hs
    | _ =>
      rw [hrole] at hC
      exact hC
  have hsome : ∀ j, (R.role e).job s.1 = some j →
      R.jobs s.2 A = j ::ₘ rest.filterMap (Task.job R.role s.2) := fun j hj => by
    rw [Replicating.jobs, hpool, Multiset.filterMap_cons_some _ _ _ (hjob.trans hj)]
  have hnone : (R.role e).job s.1 = none → R.jobs s.2 A = rest.filterMap (Task.job R.role s.2) :=
    fun hj => by
      rw [Replicating.jobs, hpool, Multiset.filterMap_cons_none _ _ (hjob.trans hj)]
  obtain ⟨floor', promised', hreach, hfloor, hprom⟩ :=
    hmove.reachable hsome hnone hT.reachable hallowed
  have hown : ∀ q (f f' : Replica c → ℚ), f' = Function.update f s.1 (c.clock s t) →
      f' q = f q ∨ (q, s.2) = s ∧ f' q = c.clock s t := fun q f f' hf => by
    by_cases hq : q = s.1
    · subst hq
      exact .inr ⟨rfl, by rw [hf, Function.update_self]⟩
    · exact .inl (by rw [hf, Function.update_of_ne hq])
  refine ⟨floor', promised', hT.serve hE hpool ht hx hr hnew ?_ ?_ ?_ ?_⟩
  · rwa [replicas_served_self, jobs_served hnew hjobs, if_pos rfl]
  · intro q
    rcases hfloor with rfl | ⟨hid, hf⟩
    · exact .inl rfl
    · exact (hown q _ _ hf).imp_right fun hq => ⟨hq.1, hid, hq.2⟩
  · intro q
    rcases hprom with rfl | ⟨hrole, hf⟩
    · exact .inl rfl
    · exact (hown q _ _ hf).imp_right fun hq => ⟨hq.1, hrole, hq.2⟩
  · intro q i hi
    rw [replicas_served] at hi
    split at hi <;> rename_i hs
    · obtain rfl : q = s.1 := congrArg Prod.fst hs
      exact (hmove.making hi).imp (fun hm => ⟨hm.1, fun _ => hm.2⟩) fun hm => ⟨rfl, hm⟩
    · exact .inl ⟨hi, fun hq => absurd hq hs⟩

/-- A handler call in another partition changes nothing here. -/
theorem Replicating.Tracked.elsewhere (hT : R.Tracked d p A h floor promised)
    (hE : Exclusive R.kind A) (hpool : A.pool = x ::ₘ rest) (ht : A.now ≤ t)
    (hx : Ready s t (A.locks s) x e tb) (hr : P.serve s t (A.server s) e = some r)
    (hnew : Spawns s t r new) (hp : p ≠ s.2) :
    R.Tracked d p (A.served s t r tb rest new) (.server s t e (A.server s) r :: h) floor
      promised := by
  obtain ⟨jobs, -, hjobs⟩ := R.move hr
  have hs : ∀ q, (q, p) ≠ s := fun q hq => hp (congrArg Prod.snd hq)
  have hreplicas : R.replicas p (A.served s t r tb rest new) = R.replicas p A := by
    funext q
    rw [replicas_served, if_neg (hs q)]
  refine hT.serve hE hpool ht hx hr hnew ?_ (fun q => .inl rfl)
    (fun q => .inl rfl) fun q i hi => .inl ⟨hreplicas ▸ hi, fun hq => absurd hq (hs q)⟩
  have hjob : Task.job R.role p x = none := by
    unfold Task.job
    rw [hx.event?, Option.bind_some, if_neg hp.symm]
  have := hT.reachable
  rwa [hreplicas, jobs_served hnew hjobs, if_neg hp, Multiset.add_zero,
    ← Multiset.filterMap_cons_none _ _ hjob, ← hpool]

end Serve

/-- The tasks a client leaves behind. -/
def clientTasks (k : ClientId c) (outs : List (Out (ServerId c) (ClientId c) E)) :
    Multiset (Task (ServerId c) (ClientId c) E) :=
  (outs.map (Out.taskOfClient k) : List (Task (ServerId c) (ClientId c) E))

/-- Clients have no part in the replication. -/
theorem Replicating.client_jobs {k : ClientId c} {t : ℚ} {e : E} {x : χ} {st : κ}
    {r : κ × List (Out (ServerId c) (ClientId c) E)} (hr : P.client k t x st e = some r)
    (p : Partition c) : (clientTasks k r.2).filterMap (Task.job R.role p) = 0 := by
  rw [clientTasks, Multiset.filterMap_coe, Multiset.coe_eq_zero, List.filterMap_eq_nil_iff]
  intro y hy
  obtain ⟨o, ho, rfl⟩ := List.mem_map.mp hy
  have hrole := R.client hr o ho
  cases o <;> simp only [Out.event] at hrole <;>
    simp [Task.job, Out.taskOfClient, Task.event?, hrole, Role.job]

theorem Replicating.Tracked.client (hT : R.Tracked d p A h floor promised) {k : ClientId c} {t : ℚ}
    {e : E} {x : χ} {r : κ × List (Out (ServerId c) (ClientId c) E)}
    {rest : Multiset (Task (ServerId c) (ClientId c) E)} (hpool : A.pool = .client k e ::ₘ rest)
    (ht : A.now ≤ t) (hr : P.client k t x (A.client k) e = some r)
    (a : Act (ServerId c) (ClientId c) E σ κ) :
    R.Tracked d p { A with now := t, client := Function.update A.client k r.1,
                           pool := rest + clientTasks k r.2 }
      (a :: h) floor promised := by
  have hnew := Replicating.client_jobs (R := R) hr p
  have hmem : ∀ {s m id e' u}, Task.release s m id e' u ∈ rest +
      clientTasks k r.2 ↔
        Task.release s m id e' u ∈ A.pool := by
    intro s m id e' u
    rw [hpool, Multiset.mem_add, Multiset.mem_cons]
    have : Task.release s m id e' u ∉ clientTasks k r.2 := by
      intro hm
      obtain ⟨o, -, ho⟩ := List.mem_map.mp (Multiset.mem_coe.mp hm)
      cases o <;> cases ho
    simp [this]
  refine ⟨?_, hT.now_pos.trans_le ht, fun q hq => (hT.floor_free q hq).trans_le (clock_mono _ ht),
    fun q e' u hm => hT.floor_ready q e' u (hmem.mp hm),
    fun q => (hT.promised_le q).trans (clock_mono _ ht), fun q => ?_, fun q i hi => ?_⟩
  · have := hT.reachable
    rw [Replicating.jobs, hpool, Multiset.filterMap_cons_none _ _ rfl] at this
    rw [Replicating.jobs, Multiset.filterMap_add, hnew, Multiset.add_zero]
    exact this
  · exact (hT.promised_past q).imp id fun ⟨t', e', st', o, hm, hrest⟩ =>
      ⟨t', e', st', o, List.mem_cons_of_mem _ hm, hrest⟩
  · obtain ⟨e', u, hm, he⟩ := hT.making q i hi
    exact ⟨e', u, hmem.mpr hm, he⟩

/-- A configuration in which no version exists. -/
structure Replicating.Fresh (R : Replicating P D) (A : Config (ServerId c) (ClientId c) E σ κ) :
    Prop where
  exclusive : Exclusive R.kind A
  now_pos : 0 < A.now
  view : ∀ s, R.view s (A.server s) =
    ⟨fun _ => [], fun _ => 0, fun _ => [], fun _ => none⟩
  jobs : ∀ p, R.jobs p A = 0
  unlocked : ∀ s e u, .release s .mutex R.lock e u ∉ A.pool

theorem Replicating.Fresh.tracked {A : Config (ServerId c) (ClientId c) E σ κ} (hA : R.Fresh A)
    (d : Discipline) (p : Partition c) : R.Tracked d p A [] (fun _ => 0) (fun _ => 0) where
  reachable := by
    have h : assemble (R.replicas p A) (fun _ => 0) (fun _ => 0) (R.jobs p A) = init := by
      unfold assemble
      simp only [Replicating.replicas, hA.view (_, p), hA.jobs, List.map_nil, Option.map_none]
      rfl
    rw [h]
    exact .refl
  now_pos := hA.now_pos
  floor_free r _ := clock_pos (r, p) hA.now_pos
  floor_ready r e u hm := absurd hm (hA.unlocked _ e u)
  promised_le r := (clock_pos (r, p) hA.now_pos).le
  promised_past r := .inl rfl
  making r i hi := by
    rw [Replicating.replicas, hA.view (r, p)] at hi
    exact absurd rfl hi

/-- **Refinement.**  Every run whose handler calls the discipline allows is, for each partition, a
run of the machine under that discipline. -/
theorem Replicating.tracks {C : Cond (ServerId c) (ClientId c) E σ κ}
    {A₀ : Config (ServerId c) (ClientId c) E σ κ} (h0 : R.Fresh A₀)
    (hC : R.Enforces C d) (hr : Run P C A₀ A h) (p : Partition c) :
    ∃ floor promised, R.Tracked d p A h floor promised := by
  induction hr with
  | nil => exact ⟨_, _, h0.tracked d p⟩
  | @cons A A' h a hrun hstep hc ih =>
    obtain ⟨floor, promised, hT⟩ := ih
    have hE := hrun.exclusive R.disciplined h0.exclusive
    cases hstep with
    | @serve s t x e tb r rest new hpool ht hx hr hnew =>
      by_cases hp : p = s.2
      · subst hp
        exact hT.move hE hpool ht hx hr hnew (hC _ _ _ _ _ _ hr (hc _ rfl))
      · exact ⟨floor, promised, hT.elsewhere hE hpool ht hx hr hnew hp⟩
    | release hpool ht hready hl => exact ⟨floor, promised, hT.release hpool ht hready hl⟩
    | client hpool ht hr => exact ⟨floor, promised, hT.client hpool ht hr _⟩
    | wait ht => exact ⟨floor, promised, hT.wait ht⟩

end Runs

end CCSim
