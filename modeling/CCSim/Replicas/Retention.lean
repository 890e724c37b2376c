/-
# No version is lost on its way

A version that a server has accepted is being sent, waits at each of the other replicas, or is in
their stores, unless one of them has discarded it: the work on its update has come to an end and it
is not in the store (`Replicating.Discards`).  That needs no condition on the run
(`Replicating.retained`).

With messages in order, PUTs after heartbeats and no heartbeat that passes a queue, what is still on
its way lies ahead of the version vectors.  So a server has stored or discarded every version of a
source that is not later than an entry for the source has ever been (`Replicating.reached`), and it
does not matter when the version was accepted: what is accepted later than the entry was held is
later than the entry (`Replicating.accept_later`).
-/
import CCSim.Replicas.Reads
import CCSim.Replicas.Senders
import CCSim.StableTimes

namespace CCSim

open Replication

variable {c : Cluster} {D E σ κ χ : Type} {P : Program (ServerId c) (ClientId c) E σ κ χ}

/-! ## 1. What a move does to a version on its way -/

section Moves

variable {rules : UpdateRules (Replica c)} {r : Replica c} {clock : ℚ} {role : Role c D}
  {l l' : ReplicaState c D} {jobs : Multiset (Job (Stored c D) (Replica c) ℚ)}

/-- A version that is being made is sent to all other replicas when it has been made; only another
PUT could take its place. -/
theorem Move.made_or_sent (hm : Move rules r clock role l l' jobs) {i : ℕ}
    {u : ReplicaUpdate (Replica c) D} (hu : l.making i = some u) :
    l'.making i = some u ∨ (∀ j, j ≠ r → Job.update j u.stored ∈ jobs) ∨ ∃ id, role = .put id := by
  cases hm with
  | put id => exact .inr (.inr ⟨id, rfl⟩)
  | discard id => exact .inr (.inr ⟨id, rfl⟩)
  | @made _ id v rs hv hrs =>
    by_cases hi : i = id
    · subst hi
      cases hu.symm.trans hv
      exact .inr (.inl fun j hj => mem_updates.mpr ⟨j, (hrs j).mpr hj, rfl⟩)
    · exact .inl ((Function.update_of_ne hi _ _).trans hu)
  | _ => exact .inl hu

/-- A version that a PUT puts on top is being made. -/
theorem Move.put_making (hm : Move rules r clock role l l' jobs) {id : ℕ} (hrole : role = .put id)
    {k : Key} {x : Item (Replica c) D} (hx : l'.store k = x :: l.store k) :
    ∃ u, l'.making id = some u ∧ u.stored = (k, x) := by
  cases hm with
  | put id' u =>
    cases hrole
    refine ⟨u, Function.update_self _ _ _, ?_⟩
    by_cases hk : k = u.key
    · subst hk
      have hcons := (Function.update_self u.key (u.item :: l.store u.key) l.store).symm.trans hx
      exact Prod.ext rfl (List.cons.inj hcons).1
    · have hsame := (Function.update_of_ne hk (u.item :: l.store u.key) l.store).symm.trans hx
      exact absurd hsame.symm (List.cons_ne_self _ _)
  | discard => exact absurd hx.symm (List.cons_ne_self _ _)
  | _ => cases hrole

end Moves

/-! ## 2. Versions that are discarded -/

/-- In this handler call `s` stops its work on an update, without having the version in its store:
the update has had its turn to be installed, or it leaves its queue. -/
def Replicating.Discards (R : Replicating P D) (s : ServerId c) (v : Stored c D) :
    Act (ServerId c) (ClientId c) E σ κ → Prop
  | .client _ _ _ _ _ => False
  | .server s' _ e st r => s' = s ∧ v.2 ∉ (R.view s r.state).store v.1 ∧
      ((∃ u, R.role e = .install u ∧ u.stored = v) ∨
        ∃ j, ∃ u ∈ departed ((R.view s st).queues j ++ (R.role e).incoming j)
          ((R.view s r.state).queues j), u.stored = v)

/-- The server `s` has discarded the version. -/
def Replicating.Discarded (R : Replicating P D) (h : List (Act (ServerId c) (ClientId c) E σ κ))
    (s : ServerId c) (v : Stored c D) : Prop :=
  ∃ a ∈ h, R.Discards s v a

theorem Replicating.Discarded.mono {R : Replicating P D}
    {h h' : List (Act (ServerId c) (ClientId c) E σ κ)} {s : ServerId c} {v : Stored c D}
    (hd : R.Discarded h s v) (hsub : h ⊆ h') : R.Discarded h' s v := by
  obtain ⟨a, ha, hd⟩ := hd
  exact ⟨a, hsub ha, hd⟩

/-- `R.Kept A h r v`: the version is in the store of the server `r`, which may have discarded it
before. -/
def Replicating.Kept (R : Replicating P D) (A : Config (ServerId c) (ClientId c) E σ κ)
    (h : List (Act (ServerId c) (ClientId c) E σ κ)) (s : ServerId c) (v : Stored c D) : Prop :=
  v.2 ∈ (R.view s (A.server s)).store v.1 ∨ R.Discarded h s v

/-- Where the versions are that the replicas of a partition have accepted: on their way to the
others, or kept there. -/
structure Replicating.Retained (R : Replicating P D) (p : Partition c)
    (A : Config (ServerId c) (ClientId c) E σ κ)
    (h : List (Act (ServerId c) (ClientId c) E σ κ)) : Prop where
  arrive : ∀ q r v, r ≠ q → v.2 ∈ (R.replicas p A q).store v.1 → v.2.sourceReplica = q →
    (∃ i u, (R.replicas p A q).making i = some u ∧ u.stored = v) ∨ .update r v ∈ R.jobs p A ∨
      (∃ u ∈ (R.replicas p A r).queues q, u.stored = v) ∨ R.Kept A h (r, p) v
  leave : ∀ r v, .leave r v ∈ R.jobs p A → R.Kept A h (r, p) v

section Steps

variable {R : Replicating P D} {d : Discipline} {p : Partition c}
  {A A' : Config (ServerId c) (ClientId c) E σ κ}
  {h : List (Act (ServerId c) (ClientId c) E σ κ)} {floor promised : Replica c → ℚ}

/-- What is kept stays kept. -/
theorem Replicating.Kept.step {s : ServerId c} {v : Stored c D} (hk : R.Kept A h s v)
    {a : Option (Act (ServerId c) (ClientId c) E σ κ)} (hs : Step P A a A') :
    R.Kept A' (a.toList ++ h) s v :=
  hk.imp (fun hmem => (R.store_step hs s v.1).subset hmem)
    fun hd => hd.mono (List.subset_append_right _ _)

/-- A step that leaves the versions of a partition and the work on them alone. -/
theorem Replicating.Retained.same (hR : R.Retained p A h)
    {a : Option (Act (ServerId c) (ClientId c) E σ κ)} (hs : Step P A a A')
    (hreplicas : R.replicas p A' = R.replicas p A) (hjobs : R.jobs p A' = R.jobs p A) :
    R.Retained p A' (a.toList ++ h) where
  arrive q r v hne hmem hsrc := by
    rw [hreplicas] at hmem
    rw [hreplicas, hjobs]
    refine (hR.arrive q r v hne hmem hsrc).imp_right fun h => h.imp_right fun h => h.imp_right ?_
    exact fun hk => hk.step hs
  leave r v hv := by
    rw [hjobs] at hv
    exact (hR.leave r v hv).step hs

variable {s : ServerId c} {t : ℚ} {x : Task (ServerId c) (ClientId c) E} {e : E} {tb : LockTable}
  {o : Outcome (ServerId c) (ClientId c) E σ}
  {rest : Multiset (Task (ServerId c) (ClientId c) E)}
  {new : List (Task (ServerId c) (ClientId c) E)}

/-- An update that is in its queue or has just arrived stays in the queue, or is kept. -/
theorem Replicating.queued_or_kept (hserve : P.serve s t (A.server s) e = some o) {j : Replica c}
    {u : ReplicaUpdate (Replica c) D}
    (hu : u ∈ (R.view s (A.server s)).queues j ++ (R.role e).incoming j) :
    (∃ w ∈ (R.replicas s.2 (A.served s t o tb rest new) s.1).queues j, w.stored = u.stored) ∨
      R.Kept (A.served s t o tb rest new) (.server s t e (A.server s) o :: h) s u.stored := by
  obtain ⟨jobs, hm, -⟩ := R.move hserve
  rw [← departed_append (hm.queue j)] at hu
  have hstate : (A.served s t o tb rest new).server s = o.state := Function.update_self _ _ _
  rcases List.mem_append.mp hu with hu | hu
  · refine .inr ?_
    by_cases hstore : u.stored.2 ∈ (R.view s o.state).store u.stored.1
    · exact .inl (by rwa [hstate])
    · exact .inr ⟨_, List.mem_cons_self, rfl, hstore, .inr ⟨j, u, hu, rfl⟩⟩
  · refine .inl ⟨u, ?_, rfl⟩
    rw [replicas_served, if_pos rfl]
    exact hu

/-- **One handler call** in the partition loses no version. -/
theorem Replicating.Retained.serve (hR : R.Retained s.2 A h)
    (hT : R.Tracked d s.2 A h floor promised) (hE : Exclusive R.kind A)
    (hpool : A.pool = x ::ₘ rest) (ht : A.now ≤ t) (hx : Ready s t (A.locks s) x e tb)
    (hserve : P.serve s t (A.server s) e = some o) (hnew : Spawns s t o new) :
    R.Retained s.2 (A.served s t o tb rest new) (.server s t e (A.server s) o :: h) := by
  have hstep : Step P A _ (A.served s t o tb rest new) := .serve hpool ht hx hserve hnew
  have hb := Reachable.basic hT.reachable
  have hplaced := hE.placed x (by rw [hpool]; exact Multiset.mem_cons_self _ _)
  obtain ⟨jobs, hm, hjobs⟩ := R.move hserve
  have hstate : (A.served s t o tb rest new).server s = o.state := Function.update_self _ _ _
  have hjobs' : R.jobs s.2 (A.served s t o tb rest new) =
      rest.filterMap (Task.job R.role s.2) + jobs := by
    rw [jobs_served hnew hjobs, if_pos rfl]
  -- what is left of the jobs is what was there, but for the one that is handled
  have hleft : ∀ j, j ∈ R.jobs s.2 A →
      j ∈ R.jobs s.2 (A.served s t o tb rest new) ∨ (R.role e).job s.1 = some j := by
    intro j hj
    have hjob : Task.job R.role s.2 x = (R.role e).job s.1 := by
      rw [Task.job, hx.event?, Option.bind_some, if_pos rfl]
    rw [hjobs']
    rw [Replicating.jobs, hpool] at hj
    cases hrole : (R.role e).job s.1 with
    | none =>
      rw [Multiset.filterMap_cons_none _ _ (hjob.trans hrole)] at hj
      exact .inl (Multiset.mem_add.mpr (.inl hj))
    | some j' =>
      rw [Multiset.filterMap_cons_some _ _ _ (hjob.trans hrole)] at hj
      rcases Multiset.mem_cons.mp hj with rfl | hj
      · exact .inr rfl
      · exact .inl (Multiset.mem_add.mpr (.inl hj))
  -- a queue at another replica, or of another source
  have hqueue : ∀ r j, ∀ u ∈ (R.replicas s.2 A r).queues j,
      (∃ w ∈ (R.replicas s.2 (A.served s t o tb rest new) r).queues j, w.stored = u.stored) ∨
        R.Kept (A.served s t o tb rest new) (.server s t e (A.server s) o :: h) (r, s.2)
          u.stored := by
    intro r j u hu
    by_cases hr : r = s.1
    · subst hr
      exact Replicating.queued_or_kept hserve (List.mem_append_left _ hu)
    · refine .inl ⟨u, ?_, rfl⟩
      rwa [replicas_served, if_neg fun hs => hr (congrArg Prod.fst hs)]
  constructor
  · intro q r v hne hmem hsrc
    by_cases hold : v.2 ∈ (R.replicas s.2 A q).store v.1
    · rcases hR.arrive q r v hne hold hsrc with ⟨i, u, hu, huv⟩ | hup | ⟨u, hu, huv⟩ | hk
      · by_cases hq : q = s.1
        · subst hq
          rcases hm.made_or_sent hu with hu' | hsent | ⟨id, hid⟩
          · refine .inl ⟨i, u, ?_, huv⟩
            rwa [replicas_served, if_pos rfl]
          · refine .inr (.inl ?_)
            rw [hjobs', ← huv]
            exact Multiset.mem_add.mpr (.inr (hsent r hne))
          · -- nothing is being made when a PUT has the lock
            have hnone := hT.making_free hE (hx.granted hplaced (R.kind_put hid)).1 i
            cases hu.symm.trans hnone
        · refine .inl ⟨i, u, ?_, huv⟩
          rwa [replicas_served, if_neg fun hs => hq (congrArg Prod.fst hs)]
      · rcases hleft _ hup with hup | hjob
        · exact .inr (.inl hup)
        · -- its update arrives now
          cases hrole : R.role e with
          | update u =>
            rw [hrole] at hjob
            cases hjob
            have hin : u ∈ (R.view s (A.server s)).queues q ++ (R.role e).incoming q := by
              rw [hrole]
              refine List.mem_append_right _ ?_
              rw [Role.incoming, if_pos (by exact hsrc)]
              exact List.mem_singleton_self u
            exact .inr (.inr (Replicating.queued_or_kept hserve hin))
          | _ => rw [hrole] at hjob; cases hjob
      · refine .inr (.inr ?_)
        rw [← huv]
        exact hqueue r q u hu
      · exact .inr (.inr (.inr (hk.step hstep)))
    · -- it has just been accepted
      rw [replicas_served] at hmem
      split at hmem
      · rename_i hs
        obtain rfl : q = s.1 := congrArg Prod.fst hs
        rcases hm.store v.1 with hsame | ⟨y, hy, hcase⟩
        · exact absurd (hsame ▸ hmem) hold
        · rw [hy] at hmem
          rcases List.mem_cons.mp hmem with hv | hmem
          · rcases hcase with ⟨⟨id, hid⟩, -⟩ | ⟨u, hu, huv⟩
            · obtain ⟨u, hu, huv⟩ := hm.put_making hid hy
              refine .inl ⟨id, u, ?_, huv.trans (Prod.ext rfl hv.symm)⟩
              rw [replicas_served, if_pos rfl]
              exact hu
            · -- an update that is installed comes from another replica
              have hjob : Job.install s.1 u.stored ∈ R.jobs s.2 A :=
                R.job_mem (by rw [hpool]; exact Multiset.mem_cons_self _ _) hx.event?
                  (by rw [hu]; rfl)
              refine absurd ?_ (hb.queue _ _ _ (hb.install _ _ hjob)).2.1
              rw [← huv, ← hv]
              exact hsrc
          · exact absurd hmem hold
      · exact absurd hmem hold
  · intro r v hv
    rw [hjobs'] at hv
    rcases Multiset.mem_add.mp hv with hv | hv
    · refine (hR.leave r v ?_).step hstep
      rw [Replicating.jobs, hpool]
      exact Multiset.mem_of_le (Multiset.filterMap_le_filterMap _ (Multiset.le_cons_self _ _)) hv
    · obtain ⟨rfl, u, hu, huv⟩ := hm.leave_mem hv
      by_cases hstore : v.2 ∈ (R.view s o.state).store v.1
      · exact .inl (by rwa [hstate])
      · exact .inr ⟨_, List.mem_cons_self, rfl, hstore, .inl ⟨u, hu, huv⟩⟩

end Steps

/-! ## 3. Every run -/

/-- Messages are in order, PUTs get their lock after the heartbeats sent before, and no heartbeat
passes a queue. -/
def inTime : Discipline := ⟨True, True, True, True, False, False⟩

section Runs

variable {R : Replicating P D} {C : Cond (ServerId c) (ClientId c) E σ κ}
  {A₀ A N : Config (ServerId c) (ClientId c) E σ κ}
  {h : List (Act (ServerId c) (ClientId c) E σ κ)}

/-- **No version is lost.**  In every run, whatever is accepted is on its way or kept. -/
theorem Replicating.retained (h0 : R.Fresh A₀) (hr : Run P C A₀ A h) (p : Partition c) :
    R.Retained p A h := by
  induction hr with
  | nil =>
    constructor
    · intro q r v _ hmem
      rw [Replicating.replicas, h0.view] at hmem
      cases hmem
    · intro r v hv
      rw [h0.jobs] at hv
      cases hv
  | @cons A A' h a hrun hstep _ ih =>
    cases hstep with
    | @serve s t x e tb o rest new hpool ht hx hserve hnew =>
      by_cases hp : p = s.2
      · subst hp
        obtain ⟨floor, promised, hT⟩ := Replicating.tracks h0 (R.enforces_noDiscipline C) hrun s.2
        exact ih.serve hT (hrun.exclusive R.disciplined h0.exclusive) hpool ht hx hserve hnew
      · obtain ⟨jobs, -, hjobs⟩ := R.move hserve
        refine ih.same (.serve hpool ht hx hserve hnew) ?_ ?_
        · funext q
          exact (replicas_served q).trans (if_neg fun hs => hp (congrArg Prod.snd hs))
        · have hjob : Task.job R.role p x = none := by
            rw [Task.job, hx.event?, Option.bind_some, if_neg (Ne.symm hp)]
          refine (jobs_served hnew hjobs).trans ?_
          rw [if_neg hp, Multiset.add_zero, Replicating.jobs, hpool,
            Multiset.filterMap_cons_none _ _ hjob]
    | release hpool ht hready hl =>
      refine ih.same (.release hpool ht hready hl) rfl ?_
      rw [Replicating.jobs, Replicating.jobs, hpool, Multiset.filterMap_cons_none _ _ rfl]
    | client hpool ht hasked =>
      refine ih.same (.client hpool ht hasked) rfl ?_
      have hnone := Replicating.client_jobs (R := R) hasked p
      rw [Replicating.jobs, Replicating.jobs, hpool, Multiset.filterMap_add,
        Multiset.filterMap_cons_none _ _ rfl]
      exact (congrArg _ hnone).trans (Multiset.add_zero _)
    | wait ht => exact ih.same (.wait ht) rfl rfl

/-- With messages in order, PUTs after heartbeats and no heartbeat that passes a queue, a server has
kept every version up to its version vector. -/
theorem Replicating.kept (h0 : R.Fresh A₀) (hC : R.Enforces C inTime) (hr : Run P C A₀ A h)
    {m j : Replica c} {p : Partition c} (hj : m ≠ j) {v : Stored c D}
    (hv : v.2 ∈ (R.view (j, p) (A.server (j, p))).store v.1) (hsrc : v.2.sourceReplica = j)
    (hle : v.2.updateTime ≤ (R.view (m, p) (A.server (m, p))).versionVector j) :
    R.Kept A h (m, p) v := by
  obtain ⟨floor, promised, hT⟩ := Replicating.tracks h0 hC hr p
  have ha := hT.reachable.ahead trivial trivial trivial trivial
  have hR := Replicating.retained h0 hr p
  subst hsrc
  rcases hR.arrive _ m v hj hv rfl with ⟨i, u, hu, huv⟩ | hup | ⟨u, hu, huv⟩ | hk
  · refine absurd hle (not_le.mpr ?_)
    exact ha.making m i v hj (huv ▸ congrArg (Option.map ReplicaUpdate.stored) hu)
  · exact absurd hle (not_le.mpr (ha.update m v hup))
  · by_cases hl : .leave m v ∈ R.jobs p A
    · exact hR.leave m v hl
    · refine absurd hle (not_le.mpr (ha.queue m v ?_ hl))
      exact List.mem_map.mpr ⟨u, hu, huv⟩
  · exact hk

/-- The steps of a run met its condition. -/
theorem Run.before_meets {h l₁ l₂ : List (Act (ServerId c) (ClientId c) E σ κ)}
    {b : Act (ServerId c) (ClientId c) E σ κ} (hr : Run P C A₀ A h) (hh : h = l₂ ++ b :: l₁) :
    ∃ N N', Run P C A₀ N l₁ ∧ Step P N (some b) N' ∧ C (N.view l₁) b := by
  induction hr generalizing l₂ with
  | nil => simp at hh
  | @cons A A' h a hrun hstep hc ih =>
    cases a with
    | none => exact ih hh
    | some a =>
      cases l₂ with
      | nil =>
        obtain ⟨rfl, rfl⟩ := List.cons.inj hh
        exact ⟨_, _, hrun, hstep, hc _ rfl⟩
      | cons _ l₂ => exact ih (List.cons.inj hh).2

/-- A handler call of a run, with the states before and after it. -/
theorem Run.around {later past : List (Act (ServerId c) (ClientId c) E σ κ)} {s : ServerId c}
    {t : ℚ} {e : E} {st : σ} {r : Outcome (ServerId c) (ClientId c) E σ} (hr : Run P C A₀ A h)
    (hh : h = later ++ .server s t e st r :: past) :
    ∃ N N', Run P C A₀ N past ∧ Run P C A₀ N' (.server s t e st r :: past) ∧
      N.server s = st ∧ N'.server s = r.state := by
  obtain ⟨N, N', hrun, hstep, hmeets⟩ := hr.before_meets hh
  have hrun' : Run P C A₀ N' (.server s t e st r :: past) :=
    .cons hrun hstep fun _ hx => by cases hx; exact hmeets
  cases hstep with
  | serve => exact ⟨_, _, hrun, hrun', rfl, Function.update_self _ _ _⟩

end Runs

/-! ## 4. What is accepted later -/

section Own

/-! The own entry of a version vector is written by the server alone: with the clock, under the lock
of PUTs, in a handler that takes time. -/

variable {R : Replicating P D} {C : Cond (ServerId c) (ClientId c) E σ κ}
  {A₀ A N : Config (ServerId c) (ClientId c) E σ κ}
  {h : List (Act (ServerId c) (ClientId c) E σ κ)} {s : ServerId c}
  {vector : σ → Replica c → ℚ}

/-- The version vectors of a protocol, own entries included. -/
structure Replicating.Vectors (R : Replicating P D) (vector : σ → Replica c → ℚ)
    (A₀ : Config (ServerId c) (ClientId c) E σ κ) : Prop where
  view : ∀ s st j, j ≠ s.1 → (R.view s st).versionVector j = vector st j
  own : ∀ {s t st e r}, P.serve s t st e = some r →
    (∀ u, R.role e = .install u → u.sourceReplica ≠ s.1) →
    (∀ j y, R.role e = .raise j y → j ≠ s.1) →
      vector r.state s.1 = vector st s.1 ∨
        vector r.state s.1 = c.clock s t ∧ R.kind e = .locked .mutex R.lock ∧ r.noTime = false
  start : ∀ s, vector (A₀.server s) s.1 < c.clock s A₀.now
  start_nonneg : ∀ s j, 0 ≤ vector (A₀.server s) j

/-- The own entry is behind the clock, unless the lock of PUTs is held; and then it is behind the
clock when the lock will be given back. -/
structure Replicating.OwnBehind (R : Replicating P D) (vector : σ → Replica c → ℚ)
    (A : Config (ServerId c) (ClientId c) E σ κ) (s : ServerId c) : Prop where
  free : (A.locks s).mutex R.lock = false → vector (A.server s) s.1 < c.clock s A.now
  ready : ∀ e u, .release s .mutex R.lock e u ∈ A.pool → vector (A.server s) s.1 < c.clock s u

/-- One handler call of the server. -/
theorem Replicating.OwnBehind.serve (hvec : R.Vectors vector A₀) (ho : R.OwnBehind vector A s)
    (hE : Exclusive R.kind A) {t : ℚ} {x : Task (ServerId c) (ClientId c) E} {e : E}
    {tb : LockTable} {r : Outcome (ServerId c) (ClientId c) E σ}
    {rest : Multiset (Task (ServerId c) (ClientId c) E)}
    {new : List (Task (ServerId c) (ClientId c) E)} (hpool : A.pool = x ::ₘ rest) (ht : A.now ≤ t)
    (hx : Ready s t (A.locks s) x e tb) (hserve : P.serve s t (A.server s) e = some r)
    (hnew : Spawns s t r new) (hu : ∀ u, R.role e = .install u → u.sourceReplica ≠ s.1)
    (hb : ∀ j y, R.role e = .raise j y → j ≠ s.1) :
    R.OwnBehind vector (A.served s t r tb rest new) s := by
  obtain ⟨u, hu', hstrict, rfl⟩ := hnew
  have hplaced := hE.placed x (by rw [hpool]; exact Multiset.mem_cons_self _ _)
  have hstate : (A.served s t r tb rest (r.tasks s u)).server s = r.state :=
    Function.update_self _ _ _
  have hmem : ∀ {y}, y ∈ rest → y ∈ A.pool := fun hy => by
    rw [hpool]
    exact Multiset.mem_cons_of_mem hy
  constructor
  · intro hfree
    rw [hstate]
    have hfree : tb.mutex R.lock = false := by
      rwa [show (A.served s t r tb rest (r.tasks s u)).locks s = tb from
        Function.update_self _ _ _] at hfree
    rcases hvec.own hserve hu hb with hsame | ⟨-, hkind, -⟩
    · rw [hsame]
      rcases hx.mutex_free hfree with hfree | ⟨ready, hle, rfl⟩
      · exact (ho.free hfree).trans_le (clock_mono _ ht)
      · refine (ho.ready (some e) ready ?_).trans_le (clock_mono _ hle)
        rw [hpool]
        exact Multiset.mem_cons_self _ _
    · rw [(hx.granted hplaced hkind).2] at hfree
      cases hfree
  · intro e' u' hm
    rw [hstate]
    rcases Multiset.mem_add.mp hm with hold | hm
    · rcases hvec.own hserve hu hb with hsame | ⟨-, hkind, -⟩
      · rw [hsame]
        exact ho.ready e' u' (hmem hold)
      · exact absurd (hmem hold) (hE.not_mem (hx.granted hplaced hkind).1 e' u')
    · obtain ⟨-, rfl, hcont⟩ := Outcome.release_mem_tasks.mp (Multiset.mem_coe.mp hm)
      have hkind := (R.disciplined.unlock hserve hcont).1
      rcases hvec.own hserve hu hb with hsame | ⟨hclock, -, htime⟩
      · rw [hsame]
        exact (ho.free (hx.granted hplaced hkind).1).trans_le (clock_mono _ (ht.trans hu'))
      · rw [hclock]
        exact clock_lt _ (hstrict htime)

theorem Replicating.own_behind (hvec : R.Vectors vector A₀) (h0 : R.Fresh A₀)
    (hr : Run P C A₀ A h) (s : ServerId c) : R.OwnBehind vector A s := by
  induction hr with
  | nil => exact ⟨fun _ => hvec.start s, fun e u hm => absurd hm (h0.unlocked _ e u)⟩
  | @cons A A' h a hrun hstep _ ih =>
    have hE := hrun.exclusive R.disciplined h0.exclusive
    cases hstep with
    | @serve s' t x e tb r rest new hpool ht hx hserve hnew =>
      by_cases hs : s = s'
      · subst hs
        obtain ⟨hu, hb⟩ := Replicating.foreign h0 hrun
          (by rw [hpool]; exact Multiset.mem_cons_self _ _) hx.event?
        exact ih.serve hvec hE hpool ht hx hserve hnew hu hb
      · obtain ⟨u, -, -, rfl⟩ := hnew
        constructor
        · intro hfree
          dsimp only at hfree ⊢
          rw [Function.update_of_ne hs] at hfree ⊢
          exact (ih.free hfree).trans_le (clock_mono _ ht)
        · intro e' u' hm
          dsimp only at hm ⊢
          rw [Function.update_of_ne hs]
          rcases Multiset.mem_add.mp hm with hold | hm
          · exact ih.ready e' u' (by rw [hpool]; exact Multiset.mem_cons_of_mem hold)
          · exact absurd (Outcome.release_mem_tasks.mp (Multiset.mem_coe.mp hm)).1 hs
    | @release s' t ready m id tb rest hpool ht hready hl =>
      have hmem : ∀ {y}, y ∈ rest → y ∈ A.pool := fun hy => by
        rw [hpool]
        exact Multiset.mem_cons_of_mem hy
      refine ⟨fun hfree => ?_, fun e' u' hm => ih.ready e' u' (hmem hm)⟩
      dsimp only at hfree ⊢
      by_cases hs : s = s'
      · subst hs
        rw [Function.update_self] at hfree
        have hmutex := LockTable.release?_mutex hl R.lock
        by_cases hc : m = .mutex ∧ R.lock = id
        · obtain ⟨rfl, rfl⟩ := hc
          refine (ih.ready none ready ?_).trans_le (clock_mono _ hready)
          rw [hpool]
          exact Multiset.mem_cons_self _ _
        · rw [if_neg hc] at hmutex
          exact (ih.free (hmutex ▸ hfree)).trans_le (clock_mono _ ht)
      · rw [Function.update_of_ne hs] at hfree
        exact (ih.free hfree).trans_le (clock_mono _ ht)
    | @client k t e x r rest hpool ht hasked =>
      refine ⟨fun hfree => (ih.free hfree).trans_le (clock_mono _ ht), fun e' u' hm => ?_⟩
      rcases Multiset.mem_add.mp hm with hold | hm
      · exact ih.ready e' u' (by rw [hpool]; exact Multiset.mem_cons_of_mem hold)
      · obtain ⟨o, -, ho⟩ := List.mem_map.mp (Multiset.mem_coe.mp hm)
        cases o <;> cases ho
    | wait ht => exact ⟨fun hfree => (ih.free hfree).trans_le (clock_mono _ ht), ih.ready⟩

/-- The largest value that an entry has held only grows. -/
theorem largestHeld_append (vector : σ → Replica c → ℚ) (s : ServerId c) (j : Replica c)
    (l h : List (Act (ServerId c) (ClientId c) E σ κ)) :
    largestHeld vector s j h ≤ largestHeld vector s j (l ++ h) := by
  induction l with
  | nil => exact le_rfl
  | cons a l ih => exact ih.trans largestHeld_cons

/-- With messages in order, PUTs after heartbeats and no heartbeat that passes a queue, an entry has
never been larger than it is. -/
theorem Replicating.largestHeld_le (hvec : R.Vectors vector A₀) (h0 : R.Fresh A₀)
    (hC : R.Enforces C inTime) (hr : Run P C A₀ A h) (s : ServerId c) (j : Replica c) :
    largestHeld vector s j h ≤ vector (A.server s) j := by
  have hown : ∀ {s t st e r}, P.serve s t st e = some r →
      (∀ u, R.role e = .install u → u.sourceReplica ≠ s.1) →
      (∀ j y, R.role e = .raise j y → j ≠ s.1) →
        vector r.state s.1 = vector st s.1 ∨ vector r.state s.1 = c.clock s t :=
    fun hserve hu hb => (hvec.own hserve hu hb).imp_right fun h => h.1
  induction hr with
  | nil => exact hvec.start_nonneg s j
  | @cons A A' h a hrun hstep _ ih =>
    have hgrow := Replicating.vectors_grow hown (fun s => (hvec.start s).le) hvec.view h0 hC hrun
      trivial trivial trivial trivial hstep s j
    cases hstep with
    | @serve s' t x e tb r rest new hpool ht hx hserve hnew =>
      rw [Option.toList_some, List.singleton_append, largestHeld]
      split
      · rename_i hs
        subst hs
        refine max_le ?_ (ih.trans hgrow)
        dsimp only
        rw [Function.update_self]
      · exact ih.trans hgrow
    | release => exact ih.trans hgrow
    | client => exact ih.trans hgrow
    | wait => exact ih.trans hgrow

/-- **What is accepted lies ahead of all version vectors.** -/
theorem Replicating.accept_later (hvec : R.Vectors vector A₀) (h0 : R.Fresh A₀)
    (hC : R.Enforces C inTime) (hr : Run P C A₀ A h)
    {l₁ l₂ : List (Act (ServerId c) (ClientId c) E σ κ)} {j : Replica c} {p : Partition c} {t : ℚ}
    {e : E} {st : σ} {r : Outcome (ServerId c) (ClientId c) E σ} {id : ℕ}
    (hh : h = l₂ ++ .server (j, p) t e st r :: l₁) (hrole : R.role e = .put id)
    (m : Replica c) :
    largestHeld vector (m, p) j l₁ < c.clock (j, p) t := by
  obtain ⟨N, N', hrun, hstep, hmeets⟩ := hr.before_meets hh
  have hE := hrun.exclusive R.disciplined h0.exclusive
  obtain ⟨floor, promised, hT⟩ := Replicating.tracks h0 hC hrun p
  have hle := Replicating.largestHeld_le hvec h0 hC hrun (m, p) j
  refine hle.trans_lt ?_
  cases hstep with
  | @serve s t x e tb r rest new hpool ht hx hserve hnew =>
    have hplaced := hE.placed x (by rw [hpool]; exact Multiset.mem_cons_self _ _)
    have hfree := (hx.granted hplaced (R.kind_put hrole)).1
    by_cases hm : m = j
    · subst hm
      exact ((Replicating.own_behind hvec h0 hrun (m, p)).free hfree).trans_le
        (clock_mono _ ht)
    · -- an entry for another replica is not beyond what that has sent
      have hallowed := hC _ _ _ _ _ _ hserve hmeets
      simp only [Replicating.Allowed, hrole] at hallowed
      have ha := hT.reachable.ahead trivial trivial trivial trivial
      rw [← hvec.view (m, p) _ j (Ne.symm hm)]
      rcases ha.vectorFloor m j with hfloor | hpromised
      · exact (hfloor.trans_lt (hT.floor_free j hfree)).trans_le (clock_mono _ ht)
      · refine lt_of_le_of_lt hpromised ?_
        rcases hT.promised_past j with hnone | ⟨t', e', st', o, hmem, he', hsent⟩
        · exact hnone.trans_lt (clock_pos _ (hT.now_pos.trans_le ht))
        · exact hsent.trans_lt (clock_lt _ (hallowed.1 trivial t' e' st' o hmem he'))

/-- **A server has reached its entries.**  Whatever a replica accepts in a run, before or after, is
kept at a server as soon as the entry of the server for this replica is not earlier. -/
theorem Replicating.reached (hvec : R.Vectors vector A₀) (h0 : R.Fresh A₀)
    (hC : R.Enforces C inTime) (hr : Run P C A₀ A h)
    {later past : List (Act (ServerId c) (ClientId c) E σ κ)} (hh : h = later ++ past)
    (hN : Run P C A₀ N past) {j : Replica c} {v : Stored c D} (hv : R.Accepted h (j, s.2) v)
    (hle : v.2.updateTime ≤ largestHeld vector s j past) : R.Kept N past s v := by
  obtain ⟨t, e, st, r, id, hmem, hrole, hstore⟩ := hv
  rw [hh] at hmem
  rcases List.mem_append.mp hmem with hlater | hpast
  · -- what is accepted later is later
    obtain ⟨l₂, l₁, rfl⟩ := List.append_of_mem hlater
    have hh' : h = l₂ ++ .server (j, s.2) t e st r :: (l₁ ++ past) := by simpa using hh
    have hlt := Replicating.accept_later hvec h0 hC hr hh' hrole s.1
    have hgrow := largestHeld_append vector s j l₁ past
    obtain ⟨jobs, hm, -⟩ := R.move (hr.served (hh ▸ hmem))
    rcases hm.store v.1 with hsame | ⟨y, hy, ⟨-, -, htime⟩ | ⟨u, hu, -⟩⟩
    · exact absurd (hstore.symm.trans hsame) (List.cons_ne_self _ _)
    · rw [(List.cons.inj (hstore.symm.trans hy)).1, htime] at hle
      exact absurd (hle.trans hgrow) (not_le.mpr hlt)
    · cases hrole.symm.trans hu
  · obtain ⟨hmem, hsrc⟩ := Replicating.Accepted.mem hN ⟨t, e, st, r, id, hpast, hrole, hstore⟩
    by_cases hj : j = s.1
    · subst hj
      exact .inl hmem
    · have hvector := Replicating.largestHeld_le hvec h0 hC hN s j
      refine Replicating.kept h0 hC hN (Ne.symm hj) hmem hsrc ?_
      rw [hvec.view s _ j hj]
      exact hle.trans hvector

/-! ## 5. Reads that miss nothing -/

/-- What `s` has read of a key, of this time, is at least as late as all versions of the key that
are due, whether they were accepted before or are accepted after the read; but for those that `s`
has discarded. -/
def Replicating.Complete (R : Replicating P D)
    (h past : List (Act (ServerId c) (ClientId c) E σ κ)) (s : ServerId c) (key : Key)
    (due : Replica c → Item (Replica c) D → Prop) (time : ℚ) : Prop :=
  ∀ j item, R.Accepted h (j, s.2) (key, item) → due j item →
    item.updateTime ≤ time ∨ R.Discarded past s (key, item)

theorem Replicating.Complete.imp {past : List (Act (ServerId c) (ClientId c) E σ κ)} {key : Key}
    {due due' : Replica c → Item (Replica c) D → Prop} {time : ℚ}
    (hc : R.Complete h past s key due time) (hdue : ∀ j item, due' j item → due j item) :
    R.Complete h past s key due' time :=
  fun j item hv hd => hc j item hv (hdue j item hd)

/-- **A read misses nothing** that it may show and that the entries of the server have reached. -/
theorem Replicating.complete (hvec : R.Vectors vector A₀) (h0 : R.Fresh A₀)
    (hC : R.Enforces C inTime) (hr : Run P C A₀ A h)
    {later past : List (Act (ServerId c) (ClientId c) E σ κ)} (hh : h = later ++ past)
    (hN : Run P C A₀ N past) (s : ServerId c) (key : Key) (visible : Item (Replica c) D → Bool) :
    R.Complete h past s key
      (fun j item => item.updateTime ≤ largestHeld vector s j past ∧ visible item = true)
      (updateTimeOf (getValueAt (R.view s (N.server s)).store key visible)) := by
  rintro j item hv ⟨hle, hvisible⟩
  refine (Replicating.reached hvec h0 hC hr hh hN hv hle).imp_left fun hmem => ?_
  exact (Replicating.descending h0 hN s key).le_find hmem hvisible

end Own

end CCSim
