/-
# Coverage and convergence, for any protocol that replicates versions

The history of a run says which versions a server has accepted (`Replicating.Accepted`) and sent
(`Replicating.Sent`); both are the versions of its own in its store.  With this, the machine's
results become results about runs: `Replicating.covered` and `Replicating.converged`.
-/
import CCSim.Replicas.Tracking

namespace CCSim

open Replication

variable {c : Cluster} {D E σ κ χ : Type}

/-! ## 1. Versions and the history of a run -/

section Runs

variable {P : Program (ServerId c) (ClientId c) E σ κ χ} {R : Replicating P D}
  {d : Discipline} {p : Partition c} {A A' : Config (ServerId c) (ClientId c) E σ κ}
  {h : List (Act (ServerId c) (ClientId c) E σ κ)}

variable (R) in
/-- The server `s` has accepted a PUT of the version. -/
def Replicating.Accepted (h : List (Act (ServerId c) (ClientId c) E σ κ)) (s : ServerId c)
    (v : Stored c D) : Prop :=
  ∃ t e st r id, .server s t e st r ∈ h ∧ R.role e = .put id ∧
    (R.view s r.state).store v.1 = v.2 :: (R.view s st).store v.1

/-- The server `s` has sent the update to the other replicas. -/
def Replicating.Sent (R : Replicating P D) (h : List (Act (ServerId c) (ClientId c) E σ κ))
    (s : ServerId c) (u : ReplicaUpdate (Replica c) D) : Prop :=
  ∃ t e st r id, .server s t e st r ∈ h ∧ R.role e = .made id ∧ (R.view s st).making id = some u

/-- What a server has stored stays there. -/
theorem Replicating.store_step {a : Option (Act (ServerId c) (ClientId c) E σ κ)}
    (R : Replicating P D) (hs : Step P A a A') (s : ServerId c) (k : Key) :
    (R.view s (A.server s)).store k <:+ (R.view s (A'.server s)).store k := by
  cases hs with
  | @serve s' t x e tb r rest new hpool ht hx hr hnew =>
    by_cases hs : s = s'
    · subst hs
      obtain ⟨jobs, hm, -⟩ := R.move hr
      dsimp only
      rw [Function.update_self]
      rcases hm.store k with h | ⟨x, h, -⟩
      · rw [h]
      · rw [h]
        exact List.suffix_cons _ _
    · dsimp only
      rw [Function.update_of_ne hs]
  | release => exact List.suffix_refl _
  | client => exact List.suffix_refl _
  | wait => exact List.suffix_refl _

/-- What a server has accepted is in its store. -/
theorem Replicating.Accepted.mem {C : Cond (ServerId c) (ClientId c) E σ κ}
    {A₀ : Config (ServerId c) (ClientId c) E σ κ} (hr : Run P C A₀ A h) {s : ServerId c}
    {v : Stored c D} (hv : R.Accepted h s v) :
    v.2 ∈ (R.view s (A.server s)).store v.1 ∧ v.2.sourceReplica = s.1 := by
  induction hr with
  | nil =>
    obtain ⟨_, _, _, _, _, hm, -⟩ := hv
    cases hm
  | @cons A A' h a hrun hstep hc ih =>
    by_cases hold : R.Accepted h s v
    · exact ⟨(R.store_step hstep s v.1).subset (ih hold).1, (ih hold).2⟩
    obtain ⟨t, e, st, r, id, hm, he, hst⟩ := hv
    rcases List.mem_append.mp hm with hm | hm
    · obtain rfl : a = some (.server s t e st r) := by
        cases a <;> simp_all
      cases hstep with
      | serve hpool ht hx hr hnew =>
        dsimp only
        rw [Function.update_self, hst]
        obtain ⟨jobs, hmove, -⟩ := R.move hr
        rcases hmove.store v.1 with h | ⟨x, h, ⟨-, hx, -⟩ | ⟨u, hu, -⟩⟩
        · exact absurd (hst.symm.trans h) (List.cons_ne_self _ _)
        · rw [hst] at h
          rw [(List.cons.inj h).1]
          exact ⟨List.mem_cons_self, hx⟩
        · cases he.symm.trans hu
    · exact absurd ⟨t, e, st, r, id, hm, he, hst⟩ hold

/-- A run without any discipline. -/
def noDiscipline : Discipline := ⟨False, False, False, False, False, False⟩

theorem Replicating.enforces_noDiscipline (R : Replicating P D)
    (C : Cond (ServerId c) (ClientId c) E σ κ) : R.Enforces C noDiscipline := by
  intro v s t e st r _ _
  unfold Replicating.Allowed
  dsimp only
  split <;> simp [noDiscipline]

/-- What a server has stored of its own, it has accepted. -/
theorem Replicating.accepted {C : Cond (ServerId c) (ClientId c) E σ κ}
    {A₀ : Config (ServerId c) (ClientId c) E σ κ} (h0 : R.Fresh A₀) (hr : Run P C A₀ A h)
    {s : ServerId c} {v : Stored c D} (hv : v.2 ∈ (R.view s (A.server s)).store v.1)
    (hs : v.2.sourceReplica = s.1) : R.Accepted h s v := by
  induction hr with
  | nil => rw [h0.view] at hv; cases hv
  | @cons A A' h a hrun hstep hc ih =>
    have weaken : R.Accepted h s v → R.Accepted (a.toList ++ h) s v :=
      fun ⟨t, e, st, r, id, hm, hrest⟩ =>
        ⟨t, e, st, r, id, List.mem_append_right _ hm, hrest⟩
    obtain ⟨floor, promised, hT⟩ :=
      Replicating.tracks h0 (R.enforces_noDiscipline C) hrun s.2
    cases hstep with
    | @serve s' t x e tb r rest new hpool ht hx hr hnew =>
      dsimp only at hv
      by_cases hss : s = s'
      · subst hss
        rw [Function.update_self] at hv
        obtain ⟨jobs, hm, -⟩ := R.move hr
        rcases hm.store v.1 with hst | ⟨y, hst, hy⟩
        · rw [hst] at hv
          exact weaken (ih hv)
        rw [hst] at hv
        rcases List.mem_cons.mp hv with rfl | hv
        · rcases hy with ⟨⟨id, hid⟩, -⟩ | ⟨u, hu, huv⟩
          · exact ⟨t, e, _, r, id, List.mem_append_left _ List.mem_cons_self, hid, hst⟩
          · have hjob : Job.install s.1 u.stored ∈ R.jobs s.2 A :=
              R.job_mem (by rw [hpool]; exact Multiset.mem_cons_self _ _) hx.event?
                (by rw [hu]; rfl)
            have hb := Reachable.basic hT.reachable
            have hne := (hb.queue _ _ _ (hb.install _ _ hjob)).2.1
            refine absurd ?_ hne
            have := congrArg (fun w : Stored c D => w.2.sourceReplica) huv
            exact this.symm.trans hs
        · exact weaken (ih hv)
      · rw [Function.update_of_ne hss] at hv
        exact weaken (ih hv)
    | release => exact weaken (ih hv)
    | client => exact weaken (ih hv)
    | wait => exact weaken (ih hv)

/-- What a server has sent, it has accepted. -/
theorem Replicating.Sent.mem {C : Cond (ServerId c) (ClientId c) E σ κ}
    {A₀ : Config (ServerId c) (ClientId c) E σ κ} (h0 : R.Fresh A₀) (hr : Run P C A₀ A h)
    {s : ServerId c} {u : ReplicaUpdate (Replica c) D} (hu : R.Sent h s u) :
    u.item ∈ (R.view s (A.server s)).store u.key ∧ u.sourceReplica = s.1 := by
  induction hr with
  | nil =>
    obtain ⟨_, _, _, _, _, hm, -⟩ := hu
    cases hm
  | @cons A A' h a hrun hstep hc ih =>
    by_cases hold : R.Sent h s u
    · exact ⟨(R.store_step hstep s u.key).subset (ih hold).1, (ih hold).2⟩
    obtain ⟨t, e, st, r, id, hm, he, hmk⟩ := hu
    rcases List.mem_append.mp hm with hm | hm
    · obtain rfl : a = some (.server s t e st r) := by
        cases a <;> simp_all
      obtain ⟨floor, promised, hT⟩ :=
        Replicating.tracks h0 (R.enforces_noDiscipline C) hrun s.2
      have hst : st = A.server s := by cases hstep; rfl
      subst hst
      have hb := (Reachable.basic hT.reachable).making s.1 id u.stored
        (congrArg (Option.map ReplicaUpdate.stored) hmk)
      obtain ⟨y, hy, hyu⟩ := List.mem_map.mp hb.2
      refine ⟨(R.store_step hstep s u.key).subset ?_, hb.1⟩
      have : y = u.item := congrArg Prod.snd hyu
      exact this ▸ hy
    · exact absurd ⟨t, e, st, r, id, hm, he, hmk⟩ hold

/-! ## 2. What the discipline gives -/

/-- A version is in a store, or the latest one of its key is newer. -/
def Settled (store : Store (Replica c) D) (v : Stored c D) : Prop :=
  v.2 ∈ store v.1 ∨
    ∃ latest ∈ (store v.1).head?, (v.2.version v.1).Older (latest.version v.1)

theorem settled_of_done {L : Replica c → ReplicaState c D} {floor promised : Replica c → ℚ}
    {jobs : Multiset (Job (Stored c D) (Replica c) ℚ)} {r : Replica c} {v : Stored c D}
    (h : Done (assemble L floor promised jobs) r v) : Settled (L r).store v := by
  obtain ⟨k, x⟩ := v
  rcases h with h | ⟨w, hw, ho⟩
  · obtain ⟨y, hy, hyx⟩ := List.mem_map.mp h
    obtain rfl : y = x := congrArg Prod.snd hyx
    exact .inl hy
  · obtain ⟨y, hy, rfl⟩ := Option.map_eq_some_iff.mp ((List.head?_map ..).symm.trans hw)
    exact .inr ⟨y, hy, ho⟩

section Results

variable {C : Cond (ServerId c) (ClientId c) E σ κ} {A₀ : Config (ServerId c) (ClientId c) E σ κ}

/-- **Coverage.**  If updates and heartbeats are looked at in order, versions are later than the
heartbeats sent before, no heartbeat passes a queue and no tie is covered, then a version-vector
entry never runs ahead of the versions it vouches for. -/
theorem Replicating.covered (h0 : R.Fresh A₀) (hC : R.Enforces C d)
    (hr : Run P C A₀ A h) (hi : d.inOrder) (ho : d.beatsInOrder) (hb : d.afterBeats)
    (hp : d.noPassing) (ht : d.noTie)
    {m j : Replica c} (hj : j ≠ m) {v : Stored c D} (hv : R.Accepted h (j, p) v)
    (hle : v.2.updateTime ≤ (R.view (m, p) (A.server (m, p))).versionVector j) :
    Settled (R.view (m, p) (A.server (m, p))).store v := by
  obtain ⟨floor, promised, hT⟩ := Replicating.tracks h0 hC hr p
  obtain ⟨hmem, rfl⟩ := hv.mem hr
  exact settled_of_done (hT.reachable.covered hi ho hb hp ht (r := m)
    (List.mem_map_of_mem hmem) hj.symm hle)

variable (R) in
/-- No PUT has the lock or is about to send its version, and no update is on its way, waiting for
its lock or about to leave its queue. -/
def Replicating.Quiescent (A : Config (ServerId c) (ClientId c) E σ κ) : Prop :=
  ∀ x ∈ A.pool, ∀ se ∈ x.event?, match R.role se.2 with
    | .put _ | .made _ | .update _ | .install _ | .leave _ => False
    | _ => True

/-- **Convergence.**  If no tie is covered and no update stalls, then in a quiescent state all
replicas have the same latest version of a key: the newest of all that were accepted. -/
theorem Replicating.converged (h0 : R.Fresh A₀) (hC : R.Enforces C d)
    (hr : Run P C A₀ A h) (hs : d.noStall) (ht : d.noTie) (hq : R.Quiescent A)
    (p : Partition c) (k : Key) :
    ∃ latest : Option (Item (Replica c) D),
      (∀ r, ((R.view (r, p) (A.server (r, p))).store k).head? = latest) ∧
      (∀ x ∈ latest, ∃ r, R.Accepted h (r, p) (k, x)) ∧
      ∀ r y, R.Accepted h (r, p) (k, y) →
        ∃ x ∈ latest, y = x ∨ (y.version k).Older (x.version k) := by
  obtain ⟨floor, promised, hT⟩ := Replicating.tracks h0 hC hr p
  have hreach := hT.reachable
  have hm : ∀ r i, (assemble (R.replicas p A) floor promised (R.jobs p A)).making r i = none := by
    intro r i
    by_contra hi
    obtain ⟨e, u, hmem, he⟩ := hT.making r i fun hn => hi (congrArg (Option.map _) hn)
    have := hq _ hmem _ rfl
    rw [he] at this
    exact this
  have hj : ∀ r v, Job.update r v ∉ R.jobs p A ∧ Job.install r v ∉ R.jobs p A ∧
      Job.leave r v ∉ R.jobs p A := by
    intro r v
    refine ⟨fun hin => ?_, fun hin => ?_, fun hin => ?_⟩
    all_goals
      obtain ⟨x, hx, hxj⟩ := (Multiset.mem_filterMap _ _).mp hin
      obtain ⟨⟨s, e⟩, he, hej⟩ := Option.bind_eq_some_iff.mp hxj
      have := hq x hx _ he
      dsimp only at hej this
      split at hej
      · cases hrole : R.role e <;> rw [hrole] at hej this <;> simp [Role.job] at hej this
      · cases hej
  by_cases hex : ∃ r y, R.Accepted h (r, p) (k, y)
  · obtain ⟨r₀, y₀, hy₀⟩ := hex
    obtain ⟨hmem₀, hsrc₀⟩ := hy₀.mem hr
    obtain ⟨w, hw, hkw, hhead, hmax⟩ := hreach.agree hs ht hm hj (v := ((k, y₀) : Stored c D))
      (by
        show (k, y₀) ∈ _
        rw [show Versioned.source (k, y₀) = r₀ from hsrc₀]
        exact List.mem_map_of_mem hmem₀)
    obtain ⟨k', x⟩ := w
    obtain rfl : k' = k := hkw
    refine ⟨some x, fun r => ?_, ?_, fun r y hy => ⟨x, rfl, ?_⟩⟩
    · obtain ⟨z, hz, hzx⟩ := Option.map_eq_some_iff.mp ((List.head?_map ..).symm.trans (hhead r))
      obtain rfl : z = x := congrArg Prod.snd hzx
      exact hz
    · rintro _ ⟨⟩
      obtain ⟨z, hz, hzx⟩ := List.mem_map.mp hw
      obtain rfl : z = x := congrArg Prod.snd hzx
      exact ⟨z.sourceReplica, Replicating.accepted h0 hr hz rfl⟩
    · obtain ⟨hmem, hsrc⟩ := hy.mem hr
      rcases hmax (k', y) (by
        show (k', y) ∈ _
        rw [show Versioned.source (k', y) = r from hsrc]
        exact List.mem_map_of_mem hmem) rfl with heq | ho
      · exact .inl (congrArg Prod.snd heq)
      · exact .inr ho
  · refine ⟨none, fun r => ?_, by rintro _ ⟨⟩, fun r y hy => absurd ⟨r, y, hy⟩ hex⟩
    rw [List.head?_eq_none_iff]
    by_contra hne
    obtain ⟨y, chain, hc⟩ := List.exists_cons_of_ne_nil hne
    have hin : ((k, y) : Stored c D) ∈
        (assemble (R.replicas p A) floor promised (R.jobs p A)).chain r k := by
      show (k, y) ∈ ((R.view (r, p) (A.server (r, p))).store k).map (k, ·)
      rw [hc]
      exact List.mem_cons_self
    obtain ⟨z, hz, hzy⟩ := List.mem_map.mp ((Reachable.basic hreach).chain _ _ _ hin)
    obtain rfl : z = y := congrArg Prod.snd hzy
    exact hex ⟨z.sourceReplica, z, Replicating.accepted h0 hr hz rfl⟩

end Results

end Runs

end CCSim
