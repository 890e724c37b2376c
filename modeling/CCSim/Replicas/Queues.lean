/-
# The queues of replica updates

A server keeps a queue of updates for every other replica.  An update joins it when it arrives;
the first is worked on, in several events; and it leaves when it has been installed or when it
turns out to be older than what is there.

The history of a run says which updates have arrived at a queue (`Replicating.arrived`) and which
have left it (`Replicating.dequeued`).  What has arrived has left, in that order, or is still in
the queue (`Replicating.arrived_eq`), and if no work stalls somebody is always at work on the
first (`Replicating.in_progress`).  With updates handled in order, what has arrived is in order
(`Replicating.arrived_sorted`), and the work on a queue never meets an update that its assertions
exclude (`Replicating.enqueue_isSome`, `Replicating.dequeue_isSome`).
-/
import CCSim.Replicas.Results
import CCSim.Replicas.Conditions

namespace CCSim

open Replication

variable {c : Cluster} {D E σ κ χ : Type}

/-! ## 1. What a handler call does to a queue -/

/-- The updates of `j` that arrive with an event of this role. -/
def Role.incoming (j : Replica c) : Role c D → List (ReplicaUpdate (Replica c) D)
  | .update u => if u.sourceReplica = j then [u] else []
  | _ => []

/-- What is missing in front of `after`, as compared with `before`. -/
def departed {α : Type} (before after : List α) : List α :=
  before.take (before.length - after.length)

theorem departed_append {α : Type} {before after : List α} (h : after <:+ before) :
    departed before after ++ after = before := by
  obtain ⟨front, rfl⟩ := h
  simp [departed]

section Queue

variable {rules : UpdateRules (Replica c)} {store : Store (Replica c) D}
  {queue q : List (ReplicaUpdate (Replica c) D)} {n : Option (ReplicaUpdate (Replica c) D)}

/-- Work on a queue only takes updates from its front. -/
theorem replicaUpdateWork_suffix (h : replicaUpdateWork rules store queue = some (q, n)) :
    q <:+ queue := by
  induction queue with
  | nil =>
    cases h
    exact List.suffix_refl _
  | cons u queue ih =>
    unfold replicaUpdateWork at h
    split at h
    · cases h
    split at h
    · split at h
      · split at h
        · cases h
        · exact (ih h).trans (List.suffix_cons _ _)
      · split at h <;> cases h <;> exact List.suffix_refl _
    · cases h
      exact List.suffix_refl _

/-- The assertions of the work on a queue hold if its updates come from another replica, are held
here, and are not older than what is stored of their source. -/
theorem replicaUpdateWork_isSome
    (h : ∀ u ∈ queue, u.sourceReplica ≠ rules.self ∧ rules.owns u.key = true ∧ 0 < u.updateTime ∧
      ∀ x ∈ store u.key, x.sourceReplica = u.sourceReplica → x.updateTime ≤ u.updateTime) :
    (replicaUpdateWork rules store queue).isSome := by
  induction queue with
  | nil => rfl
  | cons u queue ih =>
    obtain ⟨hself, howns, hpos, hold⟩ := h u List.mem_cons_self
    have ih := ih fun w hw => h w (List.mem_cons_of_mem _ hw)
    unfold replicaUpdateWork
    rw [if_neg (by simp [hself, howns])]
    split
    · split
      · rename_i hlt
        -- an older update meets an item, and that is of another source
        rw [if_neg]
        · exact ih
        intro hs
        simp only [ReplicaUpdate.IsOlder, latestItem_eq] at hlt hs
        cases hc : store u.key with
        | nil =>
          simp only [hc, List.head?_nil, updateTimeOf, sourceReplicaOf, Option.map_none,
            Option.getD_none] at hlt
          rcases hlt with hlt | ⟨hlt, -⟩ <;> linarith
        | cons x chain =>
          rw [hc] at hs hlt
          have hx := hold x (by rw [hc]; exact List.mem_cons_self) hs.symm
          rcases hlt with hlt | ⟨-, hlt⟩
          · exact absurd hlt (not_lt.mpr hx)
          · exact lt_irrefl _ (hs ▸ hlt)
      · split <;> rfl
    · rfl

end Queue

/-- A handler call lets the updates that arrive join a queue, and takes others from its front. -/
theorem Move.queue {rules : UpdateRules (Replica c)} {r : Replica c} {clock : ℚ} {role : Role c D}
    {l l' : ReplicaState c D} {jobs : Multiset (Job (Stored c D) (Replica c) ℚ)}
    (hm : Move rules r clock role l l' jobs) (j : Replica c) :
    l'.queues j <:+ l.queues j ++ role.incoming j := by
  cases hm with
  | @update _ u q n h =>
    dsimp only [Role.incoming]
    by_cases hj : u.sourceReplica = j
    · subst hj
      rw [Function.update_self, if_pos rfl]
      unfold replicaUpdateEnqueue at h
      split at h
      · rename_i hq
        rw [hq]
        exact replicaUpdateWork_suffix h
      · cases h
        exact List.suffix_refl _
    · rw [Function.update_of_ne (Ne.symm hj), if_neg hj, List.append_nil]
  | @leave _ u q n h =>
    dsimp only [Role.incoming]
    rw [List.append_nil]
    by_cases hj : u.sourceReplica = j
    · subst hj
      rw [Function.update_self]
      unfold replicaUpdateDequeue at h
      split at h
      · cases h
      · rename_i front queue hq
        split at h
        · rw [hq]
          exact (replicaUpdateWork_suffix h).trans (List.suffix_cons _ _)
        · cases h
    · rw [Function.update_of_ne (Ne.symm hj)]
  | _ => exact (List.append_nil _).symm ▸ List.suffix_refl _

/-! ## 2. Arrivals and departures -/

section Runs

variable {P : Program (ServerId c) (ClientId c) E σ κ χ}

/-- The updates of `j` that have arrived at `s`, in this order. -/
def Replicating.arrived (R : Replicating P D) (s : ServerId c) (j : Replica c) :
    List (Act (ServerId c) (ClientId c) E σ κ) → List (ReplicaUpdate (Replica c) D)
  | [] => []
  | .client _ _ _ _ _ :: h => R.arrived s j h
  | .server s' _ e _ _ :: h => R.arrived s j h ++ if s' = s then (R.role e).incoming j else []

/-- The updates that have left the queue of `j` at `s`, in this order. -/
def Replicating.dequeued (R : Replicating P D) (s : ServerId c) (j : Replica c) :
    List (Act (ServerId c) (ClientId c) E σ κ) → List (ReplicaUpdate (Replica c) D)
  | [] => []
  | .client _ _ _ _ _ :: h => R.dequeued s j h
  | .server s' _ e st r :: h => R.dequeued s j h ++ if s' = s then
      departed ((R.view s st).queues j ++ (R.role e).incoming j) ((R.view s r.state).queues j)
    else []

variable {R : Replicating P D} {d : Discipline} {p : Partition c}
  {C : Cond (ServerId c) (ClientId c) E σ κ} {A₀ A : Config (ServerId c) (ClientId c) E σ κ}
  {h : List (Act (ServerId c) (ClientId c) E σ κ)}

/-- **First in, first out.**  What has arrived at a queue has left it, in the order of arrival, or
is in the queue. -/
theorem Replicating.arrived_eq (h0 : R.Fresh A₀) (hr : Run P C A₀ A h) (s : ServerId c)
    (j : Replica c) :
    R.arrived s j h = R.dequeued s j h ++ (R.view s (A.server s)).queues j := by
  induction hr with
  | nil =>
    rw [h0.view s]
    rfl
  | @cons A A' h a hrun hstep _ ih =>
    cases hstep with
    | @serve s' t x e tb r rest new _ _ _ hr _ =>
      change R.arrived s j h ++ _ = (R.dequeued s j h ++ _) ++ _
      dsimp only
      by_cases hs : s' = s
      · subst hs
        obtain ⟨jobs, hm, -⟩ := R.move hr
        rw [if_pos rfl, if_pos rfl, Function.update_self, List.append_assoc,
          departed_append (hm.queue j), ih, List.append_assoc]
      · rw [if_neg hs, if_neg hs, Function.update_of_ne (Ne.symm hs), List.append_nil,
          List.append_nil]
        exact ih
    | release => exact ih
    | client => exact ih
    | wait => exact ih

/-! ## 3. Somebody is at work -/

/-- The task is part of the work on the update: its lock is asked for, or is about to be given
back. -/
def Replicating.WorksOn (R : Replicating P D) (s : ServerId c) (u : ReplicaUpdate (Replica c) D)
    (x : Task (ServerId c) (ClientId c) E) : Prop :=
  ∃ e, x.event? = some (s, e) ∧ (R.role e = .install u ∨ R.role e = .leave u)

/-- A queue that is not empty has one task at work on its first update, and no other task at work
on the queue. -/
def Replicating.InProgress (R : Replicating P D) (A : Config (ServerId c) (ClientId c) E σ κ)
    (s : ServerId c) (j : Replica c) : Prop :=
  ∀ u ∈ ((R.view s (A.server s)).queues j).head?, ∃ x w rest, A.pool = x ::ₘ rest ∧
    R.WorksOn s w x ∧ w.stored = u.stored ∧
    ∀ y ∈ rest, ∀ w', R.WorksOn s w' y → w'.sourceReplica ≠ j

/-- Work on an update is a job of the machine. -/
theorem Replicating.WorksOn.job {s : ServerId c} {u : ReplicaUpdate (Replica c) D}
    {x : Task (ServerId c) (ClientId c) E} (hx : R.WorksOn s u x) :
    ∃ a, x.job R.role s.2 = some a ∧ a.IsWork s.1 u.sourceReplica := by
  obtain ⟨e, he, hrole⟩ := hx
  rw [Task.job, he, Option.bind_some, if_pos rfl]
  rcases hrole with hrole | hrole <;> rw [hrole]
  · exact ⟨_, rfl, rfl, rfl⟩
  · exact ⟨_, rfl, rfl, rfl⟩

/-- A job of work comes from a task at work. -/
theorem Replicating.WorksOn.of_job {r j : Replica c} {x : Task (ServerId c) (ClientId c) E}
    {a : Job (Stored c D) (Replica c) ℚ} (ha : x.job R.role p = some a) (hw : a.IsWork r j) :
    ∃ u, R.WorksOn (r, p) u x ∧ u.sourceReplica = j ∧
      (a = .install r u.stored ∨ a = .leave r u.stored) := by
  obtain ⟨⟨s, e⟩, he, hj⟩ := Option.bind_eq_some_iff.mp ha
  dsimp only at hj
  split at hj
  · rename_i hp
    subst hp
    cases hrole : R.role e <;> rw [hrole] at hj <;> cases hj
    · exact hw.elim
    · obtain ⟨rfl, hs⟩ := hw
      exact ⟨_, ⟨e, he, .inl hrole⟩, hs, .inl rfl⟩
    · obtain ⟨rfl, hs⟩ := hw
      exact ⟨_, ⟨e, he, .inr hrole⟩, hs, .inr rfl⟩
    · exact hw.elim
    · exact hw.elim
  · cases hj

/-- **Progress.**  If no work stalls, the first update of every queue is worked on, by exactly one
task. -/
theorem Replicating.in_progress (h0 : R.Fresh A₀) (hC : R.Enforces C d) (hr : Run P C A₀ A h)
    (hs : d.noStall) (s : ServerId c) (j : Replica c) : R.InProgress A s j := by
  obtain ⟨floor, promised, hT⟩ := Replicating.tracks h0 hC hr s.2
  have hx := Reachable.basic hT.reachable
  intro u hu
  have hq : (assemble (R.replicas s.2 A) floor promised (R.jobs s.2 A)).queue s.1 j =
      ((R.view s (A.server s)).queues j).map ReplicaUpdate.stored := rfl
  have hne : (assemble (R.replicas s.2 A) floor promised (R.jobs s.2 A)).queue s.1 j ≠ [] := by
    rw [hq]
    intro hnil
    rw [List.map_eq_nil_iff.mp hnil] at hu
    cases hu
  obtain ⟨v, hv, hwork⟩ := hT.reachable.busy hs s.1 j hne
  obtain ⟨a, ha, hwa, hav⟩ : ∃ a ∈ R.jobs s.2 A, a.IsWork s.1 j ∧
      (a = .install s.1 v ∨ a = .leave s.1 v) := by
    rcases hwork with hw | hw
    · exact ⟨_, hw, ⟨rfl, hv⟩, .inl rfl⟩
    · exact ⟨_, hw, ⟨rfl, hv⟩, .inr rfl⟩
  obtain ⟨x, hxp, hxa⟩ := (Multiset.mem_filterMap _ _).mp ha
  obtain ⟨rest, hpool⟩ := Multiset.exists_cons_of_mem hxp
  obtain ⟨w, hw, -, hwv⟩ := Replicating.WorksOn.of_job hxa hwa
  refine ⟨x, w, rest, hpool, hw, ?_, fun y hy w' hw' hsrc => ?_⟩
  · -- the machine works on the first update
    have hfront := hx.front s.1 v hwork
    rw [hv, hq, List.head?_map, Option.mem_def.mp hu] at hfront
    have hwv : w.stored = v := by
      rcases hwv with rfl | rfl
      · rcases hav with h | h <;> cases h
        rfl
      · rcases hav with h | h <;> cases h
        rfl
    rw [hwv]
    exact (Option.some.inj hfront).symm
  · obtain ⟨b, hb, hwb⟩ := hw'.job
    have hjobs : R.jobs s.2 A = a ::ₘ rest.filterMap (Task.job R.role s.2) := by
      rw [Replicating.jobs, hpool, Multiset.filterMap_cons_some _ _ _ hxa]
    exact hx.work_rest hjobs hwa b ((Multiset.mem_filterMap _ _).mpr ⟨y, hy, hb⟩) (hsrc ▸ hwb)

/-! ## 4. Updates that are handled in order -/

/-- A server holds the keys it stores. -/
theorem Replicating.owned (h0 : R.Fresh A₀) (hr : Run P C A₀ A h) (s : ServerId c) (k : Key)
    (hk : (R.view s (A.server s)).store k ≠ []) : ownsKey s k = true := by
  induction hr generalizing s with
  | nil =>
    rw [h0.view s] at hk
    exact absurd rfl hk
  | @cons A A' h a hrun hstep _ ih =>
    cases hstep with
    | @serve s' t x e tb r rest new hpool ht hx hr hnew =>
      dsimp only at hk
      by_cases hs : s = s'
      · subst hs
        rw [Function.update_self] at hk
        obtain ⟨jobs, hm, -⟩ := R.move hr
        rcases hm.store k with hsame | ⟨y, hy, ⟨⟨id, hid⟩, -, -⟩ | ⟨u, hu, huv⟩⟩
        · exact ih s (hsame ▸ hk)
        · obtain ⟨key, -, hown, hother⟩ := R.put_key hr hid
          by_cases hkey : k = key
          · rwa [hkey]
          · exact absurd (hy.symm.trans (hother k hkey)) (List.cons_ne_self _ _)
        · -- its source holds the key
          obtain ⟨floor, promised, hT⟩ :=
            Replicating.tracks h0 (R.enforces_noDiscipline C) hrun s.2
          have hjob : Job.install s.1 u.stored ∈ R.jobs s.2 A :=
            R.job_mem (by rw [hpool]; exact Multiset.mem_cons_self _ _) hx.event? (by rw [hu]; rfl)
          have hb := Reachable.basic hT.reachable
          have hmem := (hb.queue _ _ _ (hb.install _ _ hjob)).2.2
          obtain rfl : k = u.key := congrArg Prod.fst huv
          have := ih (u.sourceReplica, s.2) fun hnil => by
            obtain ⟨z, hz, -⟩ := List.mem_map.mp hmem
            rw [show R.replicas s.2 A (Versioned.source u.stored) =
              R.view (u.sourceReplica, s.2) (A.server (u.sourceReplica, s.2)) from rfl] at hz
            exact absurd hz (by rw [show Versioned.key u.stored = u.key from rfl, hnil]; simp)
          simp only [ownsKey, lpidForKey, decide_eq_true_eq, Prod.ext_iff, true_and] at this ⊢
          exact this
      · rw [Function.update_of_ne hs] at hk
        exact ih s hk
    | release => exact ih s hk
    | client => exact ih s hk
    | wait => exact ih s hk

/-- A version that is made is one that was being made, or is stamped by a PUT. -/
theorem Move.making_some {rules : UpdateRules (Replica c)} {r : Replica c} {clock : ℚ}
    {role : Role c D} {l l' : ReplicaState c D}
    {jobs : Multiset (Job (Stored c D) (Replica c) ℚ)} (hm : Move rules r clock role l l' jobs)
    {i : ℕ} {w : ReplicaUpdate (Replica c) D} (hw : l'.making i = some w) :
    l.making i = some w ∨ (∃ id, role = .put id) ∧ w.updateTime = clock := by
  cases hm with
  | put id u _ ht =>
    by_cases hi : i = id
    · subst hi
      cases (Function.update_self i (some u) l.making).symm.trans hw
      exact .inr ⟨⟨i, rfl⟩, ht⟩
    · exact .inl ((Function.update_of_ne hi _ _).symm.trans hw)
  | discard id =>
    by_cases hi : i = id
    · subst hi
      cases (Function.update_self i none l.making).symm.trans hw
    · exact .inl ((Function.update_of_ne hi _ _).symm.trans hw)
  | @made _ id =>
    by_cases hi : i = id
    · subst hi
      cases (Function.update_self i none l.making).symm.trans hw
    · exact .inl ((Function.update_of_ne hi _ _).symm.trans hw)
  | _ => exact .inl hw

/-- Updates are sent when a version has been made. -/
theorem Move.update_mem {rules : UpdateRules (Replica c)} {r : Replica c} {clock : ℚ}
    {role : Role c D} {l l' : ReplicaState c D}
    {jobs : Multiset (Job (Stored c D) (Replica c) ℚ)} (hm : Move rules r clock role l l' jobs)
    {q : Replica c} {w : Stored c D} (hw : .update q w ∈ jobs) :
    ∃ id u, role = .made id ∧ l.making id = some u ∧ u.stored = w := by
  cases hm with
  | made hu =>
    obtain ⟨q', -, h⟩ := mem_updates.mp hw
    cases h
    exact ⟨_, _, rfl, hu, rfl⟩
  | beat b => cases b <;> simp at hw
  | put | discard | discarded | raise | other => cases hw
  | promise | tick =>
    obtain ⟨_, -, h⟩ := mem_beats.mp hw
    cases h
  | update | leave =>
    obtain ⟨_, -, h⟩ := mem_next.mp hw
    cases h
  | install => cases Multiset.mem_singleton.mp hw

/-- What is known of the updates that have arrived at a queue: they came in order, and before all
that has yet to come. -/
structure Replicating.Arrivals (R : Replicating P D) (A : Config (ServerId c) (ClientId c) E σ κ)
    (h : List (Act (ServerId c) (ClientId c) E σ κ)) (s : ServerId c) (j : Replica c) : Prop where
  sorted : (R.arrived s j h).Pairwise fun u w => u.updateTime < w.updateTime
  stored : ∀ u ∈ R.arrived s j h,
    u.sourceReplica = j ∧ u.item ∈ (R.view (j, s.2) (A.server (j, s.2))).store u.key
  pending : ∀ u ∈ R.arrived s j h, ∀ w, Job.update s.1 w ∈ R.jobs s.2 A →
    w.2.sourceReplica = j → u.updateTime < w.2.updateTime
  making : ∀ u ∈ R.arrived s j h, ∀ i w,
    (R.view (j, s.2) (A.server (j, s.2))).making i = some w → u.updateTime < w.updateTime

section Arrivals

variable {s s' : ServerId c} {j : Replica c} {t : ℚ} {x : Task (ServerId c) (ClientId c) E} {e : E}
  {tb : LockTable} {r : Outcome (ServerId c) (ClientId c) E σ}
  {rest : Multiset (Task (ServerId c) (ClientId c) E)}
  {new : List (Task (ServerId c) (ClientId c) E)} {floor promised : Replica c → ℚ}

/-- An update that has not been looked at after a handler call was there before, or has just been
sent. -/
theorem Replicating.update_served (hr : P.serve s t (A.server s) e = some r)
    (hnew : Spawns s t r new) {q : Replica c} {w : Stored c D}
    (hw : Job.update q w ∈ R.jobs p (A.served s t r tb rest new)) :
    Job.update q w ∈ rest.filterMap (Task.job R.role p) ∨ p = s.2 ∧ ∃ id u,
      R.role e = .made id ∧ (R.view s (A.server s)).making id = some u ∧ u.stored = w := by
  obtain ⟨jobs, hm, hjobs⟩ := R.move hr
  rw [jobs_served hnew hjobs] at hw
  rcases Multiset.mem_add.mp hw with hw | hw
  · exact .inl hw
  · split at hw
    · exact .inr ⟨by assumption, hm.update_mem hw⟩
    · cases hw

/-- The updates that had arrived before a handler call still come before all others. -/
theorem Replicating.Arrivals.keep (hA : R.Arrivals A h s' j)
    (hT : R.Tracked d s'.2 A h floor promised)
    (hE : Exclusive R.kind A) (hpool : A.pool = x ::ₘ rest) (ht : A.now ≤ t)
    (hx : Ready s t (A.locks s) x e tb) (hr : P.serve s t (A.server s) e = some r)
    (hnew : Spawns s t r new) {u : ReplicaUpdate (Replica c) D} (hu : u ∈ R.arrived s' j h) :
    (u.sourceReplica = j ∧ u.item ∈
      (R.view (j, s'.2) ((A.served s t r tb rest new).server (j, s'.2))).store u.key) ∧
    (∀ w, Job.update s'.1 w ∈ R.jobs s'.2 (A.served s t r tb rest new) →
      w.2.sourceReplica = j → u.updateTime < w.2.updateTime) ∧
    ∀ i w, (R.view (j, s'.2) ((A.served s t r tb rest new).server (j, s'.2))).making i = some w →
      u.updateTime < w.updateTime := by
  have hb := Reachable.basic hT.reachable
  have hstore := hA.stored u hu
  refine ⟨⟨hstore.1, ?_⟩, fun w hw hj => ?_, fun i w hw => ?_⟩
  · exact (R.store_step (.serve hpool ht hx hr hnew) _ _).subset hstore.2
  · rcases Replicating.update_served hr hnew hw with hw | ⟨hp, id, v, hid, hv, rfl⟩
    · refine hA.pending u hu w ?_ hj
      rw [Replicating.jobs, hpool]
      exact Multiset.mem_of_le (Multiset.filterMap_le_filterMap _ (Multiset.le_cons_self _ _)) hw
    · -- it has been sent by its source
      have hv' : (R.replicas s'.2 A s.1).making id = some v := by
        rw [Replicating.replicas, show (s.1, s'.2) = s from Prod.ext rfl hp]
        exact hv
      have hsrc := (hb.making s.1 id v.stored (congrArg (Option.map ReplicaUpdate.stored) hv')).1
      obtain rfl : s.1 = j := hsrc.symm.trans hj
      exact hA.making u hu id v hv'
  · dsimp only [Config.served] at hw
    by_cases hs : (j, s'.2) = s
    · subst hs
      rw [Function.update_self] at hw
      obtain ⟨jobs, hm, -⟩ := R.move hr
      rcases hm.making_some hw with hw | ⟨⟨id, hid⟩, htime⟩
      · exact hA.making u hu i w hw
      · -- a new version is later than all that its source has accepted
        have hplaced := hE.placed x (by rw [hpool]; exact Multiset.mem_cons_self _ _)
        have hfree := (hx.granted hplaced (R.kind_put hid)).1
        have hle := (hb.own j u.key u.stored (List.mem_map_of_mem hstore.2) hstore.1).2
        rw [htime]
        exact (hle.trans_lt (hT.floor_free j hfree)).trans_le (clock_mono _ ht)
    · rw [Function.update_of_ne hs] at hw
      exact hA.making u hu i w hw

/-- An update that is looked at in order comes before all others. -/
theorem Replicating.Arrivals.arrive (hT : R.Tracked d s.2 A h floor promised)
    (hE : Exclusive R.kind A) (hi : d.inOrder) (hpool : A.pool = x ::ₘ rest) (ht : A.now ≤ t)
    (hx : Ready s t (A.locks s) x e tb) (hr : P.serve s t (A.server s) e = some r)
    (hnew : Spawns s t r new) {u : ReplicaUpdate (Replica c) D} (hu : R.role e = .update u)
    (hC : R.Allowed d (A.view h) (.server s t e (A.server s) r)) :
    u.item ∈ (R.view (u.sourceReplica, s.2)
      ((A.served s t r tb rest new).server (u.sourceReplica, s.2))).store u.key ∧
    (∀ w, Job.update s.1 w ∈ R.jobs s.2 (A.served s t r tb rest new) →
      w.2.sourceReplica = u.sourceReplica → u.updateTime < w.2.updateTime) ∧
    ∀ i w, (R.view (u.sourceReplica, s.2)
      ((A.served s t r tb rest new).server (u.sourceReplica, s.2))).making i = some w →
        u.updateTime < w.updateTime := by
  have hb := Reachable.basic hT.reachable
  have hl := Reachable.inLine hT.reachable hi
  have hxp : x ∈ A.pool := by rw [hpool]; exact Multiset.mem_cons_self _ _
  have hjob : Job.update s.1 u.stored ∈ R.jobs s.2 A :=
    R.job_mem hxp hx.event? (by rw [hu]; rfl)
  have hjobs : R.jobs s.2 A = .update s.1 u.stored ::ₘ rest.filterMap (Task.job R.role s.2) := by
    rw [Replicating.jobs, hpool, Multiset.filterMap_cons_some _ _ _]
    rw [Task.job, hx.event?, Option.bind_some, if_pos rfl, hu]
    rfl
  have hsrc := hb.update s.1 u.stored hjob
  refine ⟨?_, fun w hw hj => ?_, fun i w hw => ?_⟩
  · refine (R.store_step (.serve hpool ht hx hr hnew) _ _).subset ?_
    obtain ⟨z, hz, hzu⟩ := List.mem_map.mp hsrc.2
    obtain rfl : z = u.item := congrArg Prod.snd hzu
    exact hz
  · rcases Replicating.update_served hr hnew hw with hw | ⟨-, id, v, hid, -⟩
    · have hne : w ≠ u.stored := fun heq => hl.once_rest hjobs (heq ▸ hw)
      have hin : ∀ y ∈ rest, y ∈ A.pool := fun y hy => by
        rw [hpool]
        exact Multiset.mem_cons_of_mem hy
      obtain ⟨e', u', hp, hrole, rfl⟩ :=
        Replicating.update_pending (fun y hy => hE.placed y (hin y hy)) hw
      simp only [Replicating.Allowed, hu] at hC
      have hle := hC.1 hi e' u' (hin _ hp) hrole hj
      refine lt_of_le_of_ne hle fun heq => hne ?_
      have hw' : Job.update s.1 u'.stored ∈ R.jobs s.2 A :=
        R.job_mem (hin _ hp) rfl (by rw [hrole]; rfl)
      exact hb.inj _ _ _ _ (hb.update s.1 u'.stored hw').2 hsrc.2 hj heq.symm
    · cases hu.symm.trans hid
  · have hne : (u.sourceReplica, s.2) ≠ s := fun heq => hsrc.1 (congrArg Prod.fst heq)
    dsimp only [Config.served] at hw
    rw [Function.update_of_ne hne] at hw
    exact hl.updateMaking s.1 u.stored i w.stored hjob
      (congrArg (Option.map ReplicaUpdate.stored) hw)

end Arrivals

theorem Replicating.Arrivals.silent {A' : Config (ServerId c) (ClientId c) E σ κ} {s : ServerId c}
    {j : Replica c} (hA : R.Arrivals A h s j) (hs : A'.server = A.server)
    (hj : R.jobs s.2 A' = R.jobs s.2 A) {h' : List (Act (ServerId c) (ClientId c) E σ κ)}
    (hh : R.arrived s j h' = R.arrived s j h) : R.Arrivals A' h' s j := by
  constructor
  · rw [hh]; exact hA.sorted
  · rw [hh, hs]; exact hA.stored
  · rw [hh, hj]; exact hA.pending
  · rw [hh, hs]; exact hA.making

/-- **In order.**  If the updates of a source are handled in order, they arrive at its queue in
the order of their times. -/
theorem Replicating.arrivals (h0 : R.Fresh A₀) (hC : R.Enforces C d) (hr : Run P C A₀ A h)
    (hi : d.inOrder) (s : ServerId c) (j : Replica c) : R.Arrivals A h s j := by
  induction hr with
  | nil =>
    exact ⟨.nil, List.forall_mem_nil _, List.forall_mem_nil _, List.forall_mem_nil _⟩
  | @cons A A' h a hrun hstep hc ih =>
    obtain ⟨floor, promised, hT⟩ := Replicating.tracks h0 hC hrun s.2
    have hE := hrun.exclusive R.disciplined h0.exclusive
    cases hstep with
    | @serve s' t x e tb r rest new hpool ht hx hr hnew =>
      have hkeep := fun u => ih.keep hT hE hpool ht hx hr hnew (u := u)
      have hsame : ∀ h', R.arrived s j h' = R.arrived s j h →
          R.Arrivals (A.served s' t r tb rest new) h' s j := fun h' hh => by
        constructor
        · rw [hh]; exact ih.sorted
        · rw [hh]; exact fun u hu => (hkeep u hu).1
        · rw [hh]; exact fun u hu => (hkeep u hu).2.1
        · rw [hh]; exact fun u hu => (hkeep u hu).2.2
      by_cases hs : s' = s
      · subst hs
        cases hrole : R.role e with
        | update u =>
          by_cases hu : u.sourceReplica = j
          · subst hu
            have hnewu := Replicating.Arrivals.arrive hT hE hi hpool ht hx hr hnew hrole
              (hC _ _ _ _ _ _ hr (hc _ rfl))
            have harr : R.arrived s' u.sourceReplica
                (.server s' t e (A.server s') r :: h) = R.arrived s' u.sourceReplica h ++ [u] := by
              rw [Replicating.arrived, if_pos rfl, hrole, Role.incoming, if_pos rfl]
            have hjob : Job.update s'.1 u.stored ∈ R.jobs s'.2 A :=
              R.job_mem (by rw [hpool]; exact Multiset.mem_cons_self _ _) hx.event?
                (by rw [hrole]; rfl)
            constructor
            · change List.Pairwise _ (R.arrived s' u.sourceReplica
                (.server s' t e (A.server s') r :: h))
              rw [harr, List.pairwise_append]
              refine ⟨ih.sorted, List.pairwise_singleton _ _, fun w hw w' hw' => ?_⟩
              rw [List.mem_singleton.mp hw']
              exact ih.pending w hw u.stored hjob rfl
            all_goals
              intro w hw
              change w ∈ R.arrived s' u.sourceReplica
                (.server s' t e (A.server s') r :: h) at hw
              rw [harr] at hw
              rcases List.mem_append.mp hw with hw | hw
            · exact (hkeep w hw).1
            · rw [List.mem_singleton.mp hw]
              exact ⟨rfl, hnewu.1⟩
            · exact (hkeep w hw).2.1
            · rw [List.mem_singleton.mp hw]
              exact hnewu.2.1
            · exact (hkeep w hw).2.2
            · rw [List.mem_singleton.mp hw]
              exact hnewu.2.2
          · refine hsame _ ?_
            show R.arrived s' j h ++ _ = _
            rw [if_pos rfl, hrole, Role.incoming, if_neg hu, List.append_nil]
        | _ =>
          refine hsame _ ?_
          show R.arrived s' j h ++ _ = _
          rw [if_pos rfl, hrole]
          exact List.append_nil _
      · refine hsame _ ?_
        show R.arrived s j h ++ _ = _
        rw [if_neg hs, List.append_nil]
    | release hpool =>
      refine ih.silent ?_ ?_ ?_
      · rfl
      · rw [Replicating.jobs, Replicating.jobs, hpool, Multiset.filterMap_cons_none _ _ rfl]
      · rfl
    | @client k t e x r rest hpool ht hr =>
      refine ih.silent ?_ ?_ ?_
      · rfl
      · rw [Replicating.jobs, Replicating.jobs, hpool, Multiset.filterMap_cons_none _ _ rfl,
          Multiset.filterMap_add]
        exact (congrArg _ (Replicating.client_jobs hr s.2)).trans (Multiset.add_zero _)
      · rfl
    | wait =>
      refine ih.silent ?_ ?_ ?_
      · rfl
      · rfl
      · rfl

/-! ## 5. The assertions of the work on a queue -/

/-- What the assertions ask of an update that waits at `s` for its source's queue. -/
theorem Replicating.Tracked.admissible {s : ServerId c} {floor promised : Replica c → ℚ}
    (hT : R.Tracked d s.2 A h floor promised) (h0 : R.Fresh A₀) (hr : Run P C A₀ A h)
    {u : ReplicaUpdate (Replica c) D}
    (hu : u.sourceReplica ≠ s.1 ∧
      u.stored ∈ (assemble (R.replicas s.2 A) floor promised (R.jobs s.2 A)).chain
        u.sourceReplica u.key) :
    u.sourceReplica ≠ (R.rules s).self ∧ (R.rules s).owns u.key = true ∧ 0 < u.updateTime := by
  have hb := Reachable.basic hT.reachable
  rw [R.rules_self, R.rules_owns]
  refine ⟨hu.1, ?_, (hb.own _ _ _ hu.2 rfl).1⟩
  obtain ⟨z, hz, -⟩ := List.mem_map.mp hu.2
  have := Replicating.owned h0 hr (u.sourceReplica, s.2) u.key (List.ne_nil_of_mem hz)
  simp only [ownsKey, lpidForKey, decide_eq_true_eq, Prod.ext_iff, true_and] at this ⊢
  exact this

/-- An update that arrives passes the assertions. -/
theorem Replicating.enqueue_isSome (h0 : R.Fresh A₀) (hC : R.Enforces C d) (hr : Run P C A₀ A h)
    (hi : d.inOrder) {s : ServerId c} {e : E} {u : ReplicaUpdate (Replica c) D}
    (hp : .pending s e ∈ A.pool) (hu : R.role e = .update u) :
    (replicaUpdateEnqueue (R.rules s) (R.view s (A.server s)).store
      ((R.view s (A.server s)).queues u.sourceReplica) u).isSome := by
  obtain ⟨floor, promised, hT⟩ := Replicating.tracks h0 hC hr s.2
  have hjob : Job.update s.1 u.stored ∈ R.jobs s.2 A := R.job_mem hp rfl (by rw [hu]; rfl)
  have hsrc := (Reachable.basic hT.reachable).update s.1 u.stored hjob
  unfold replicaUpdateEnqueue
  split
  · refine replicaUpdateWork_isSome fun w hw => ?_
    rw [List.mem_singleton.mp hw]
    obtain ⟨h1, h2, h3⟩ := hT.admissible h0 hr hsrc
    refine ⟨h1, h2, h3, fun y hy hys => ?_⟩
    refine ((Reachable.behind hT.reachable hi).update s.1 u.key (u.key, y) u.stored ?_
      (List.mem_map_of_mem hy) hjob hys.symm).le
    exact fun heq => hsrc.1 (hys.symm.trans heq.symm)
  · rfl

/-- An update that has been installed leaves its queue, and the next one passes the assertions. -/
theorem Replicating.dequeue_isSome (h0 : R.Fresh A₀) (hC : R.Enforces C d) (hr : Run P C A₀ A h)
    (hi : d.inOrder) {s : ServerId c} {x : Task (ServerId c) (ClientId c) E} {e : E}
    {u : ReplicaUpdate (Replica c) D} (hx : x ∈ A.pool) (he : x.event? = some (s, e))
    (hu : R.role e = .leave u) :
    (replicaUpdateDequeue (R.rules s) (R.view s (A.server s)).store
      ((R.view s (A.server s)).queues u.sourceReplica) u).isSome := by
  obtain ⟨floor, promised, hT⟩ := Replicating.tracks h0 hC hr s.2
  have hb := Reachable.basic hT.reachable
  have hjob : Job.leave s.1 u.stored ∈ R.jobs s.2 A := R.job_mem hx he (by rw [hu]; rfl)
  have hfront := hb.front s.1 u.stored (.inr hjob)
  have hqueue : (assemble (R.replicas s.2 A) floor promised (R.jobs s.2 A)).queue s.1
      (Versioned.source u.stored) =
        ((R.view s (A.server s)).queues u.sourceReplica).map ReplicaUpdate.stored := rfl
  cases hq : (R.view s (A.server s)).queues u.sourceReplica with
  | nil =>
    rw [hqueue, hq] at hfront
    cases hfront
  | cons front queue =>
    rw [hqueue, hq] at hfront
    have hfu : front.stored = u.stored := Option.some.inj hfront
    unfold replicaUpdateDequeue
    dsimp only
    rw [if_pos (ReplicaUpdate.version_eq hfu)]
    refine replicaUpdateWork_isSome fun w hw => ?_
    have hwq : w.stored ∈ (assemble (R.replicas s.2 A) floor promised (R.jobs s.2 A)).queue s.1
        u.sourceReplica := by
      rw [show u.sourceReplica = Versioned.source u.stored from rfl, hqueue, hq]
      exact List.mem_map_of_mem (List.mem_cons_of_mem _ hw)
    obtain ⟨hsrc, hne, hmem⟩ := hb.queue _ _ _ hwq
    have hwsrc : w.sourceReplica = u.sourceReplica := hsrc
    obtain ⟨h1, h2, h3⟩ := hT.admissible h0 hr (u := w) ⟨hwsrc.trans_ne hne, hmem⟩
    refine ⟨h1, h2, h3, fun y hy hys => ?_⟩
    refine (Reachable.behind hT.reachable hi).queue s.1 w.key (w.key, y) w.stored ?_
      (List.mem_map_of_mem hy) ?_
    · exact fun heq => hne (hwsrc.symm.trans (hys.symm.trans heq.symm))
    · rw [show Versioned.source ((w.key, y) : Stored c D) = u.sourceReplica from hys.trans hwsrc]
      exact hwq

end Runs

end CCSim
