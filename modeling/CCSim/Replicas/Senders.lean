/-
# What a server sends, and what its version vector says, over time

A server stamps a version under its lock and sends it when it gives the lock back; it reads the
time of a heartbeat when it has given the lock back.  The lock keeps the two apart, so the times
that a server sends to another never decrease (`Replicating.outgoing`).

At the receiver the entries of the version vector do not decrease either, if messages are handled
in order and no heartbeat overtakes an update that waits in its queue (`Replicating.vector_le`).
-/
import CCSim.Replicas.Queues

namespace CCSim

open Replication

variable {c : Cluster} {D E σ κ χ : Type} {P : Program (ServerId c) (ClientId c) E σ κ χ}

/-! ## 1. What a server sends -/

/-- The time that a message for `peer` carries, if any: the time of an update, or a time other
than zero of a heartbeat. -/
def Replicating.timeFor (R : Replicating P D) (peer : ServerId c) :
    Out (ServerId c) (ClientId c) E → Option ℚ
  | .toServer s e => if s = peer then match R.role e with
      | .update u => some u.updateTime
      | .beat _ y => if y = 0 then none else some y
      | _ => none
    else none
  | _ => none

/-- The times that the server `s` has sent to `peer`, in the order in which it has sent them. -/
def Replicating.sentTimes (R : Replicating P D) (s peer : ServerId c) :
    List (Act (ServerId c) (ClientId c) E σ κ) → List ℚ
  | [] => []
  | .client _ _ _ _ _ :: h => R.sentTimes s peer h
  | .server s' _ _ _ r :: h => R.sentTimes s peer h ++
      if s' = s then r.outs.filterMap (R.timeFor peer) else []

variable {R : Replicating P D} {d : Discipline} {C : Cond (ServerId c) (ClientId c) E σ κ}
  {A₀ A A' : Config (ServerId c) (ClientId c) E σ κ}
  {h : List (Act (ServerId c) (ClientId c) E σ κ)} {s s' peer : ServerId c}

/-- A heartbeat with a time is sent by a promise. -/
theorem Move.beat_mem {rules : UpdateRules (Replica c)} {r : Replica c} {clock : ℚ}
    {role : Role c D} {l l' : ReplicaState c D}
    {jobs : Multiset (Job (Stored c D) (Replica c) ℚ)} (hm : Move rules r clock role l l' jobs)
    {q j : Replica c} {y : ℚ} (hw : .beat q j y ∈ jobs) :
    role = .promise ∧ y = clock ∨ y = 0 := by
  cases hm with
  | promise =>
    obtain ⟨_, -, h⟩ := mem_beats.mp hw
    cases h
    exact .inl ⟨rfl, rfl⟩
  | tick =>
    obtain ⟨_, -, h⟩ := mem_beats.mp hw
    cases h
    exact .inr rfl
  | beat b => cases b <;> simp at hw
  | put | discard | discarded | raise | other => cases hw
  | made =>
    obtain ⟨_, -, h⟩ := mem_updates.mp hw
    cases h
  | update | leave =>
    obtain ⟨_, -, h⟩ := mem_next.mp hw
    cases h
  | install => cases Multiset.mem_singleton.mp hw

/-- A time that is sent is that of the version which has been made, or it is read off the clock. -/
theorem Replicating.sent_time {t : ℚ} {st : σ} {e : E} {r : Outcome (ServerId c) (ClientId c) E σ}
    (hr : P.serve s t st e = some r) {z : ℚ} (hz : z ∈ r.outs.filterMap (R.timeFor peer)) :
    (∃ id u, R.role e = .made id ∧ (R.view s st).making id = some u ∧ z = u.updateTime) ∨
      R.role e = .promise ∧ z = c.clock s t := by
  obtain ⟨o, ho, hoz⟩ := List.mem_filterMap.mp hz
  obtain ⟨jobs, hm, hjobs⟩ := R.move hr
  have hjobs := hjobs t peer.2
  -- the message is a job of its receiver
  have hmem : ∀ {e' a}, o = .toServer peer e' → (R.role e').job peer.1 = some a → a ∈ jobs := by
    intro e' a he' ha
    have htask : .pending peer e' ∈ r.tasks s t := Outcome.pending_mem_tasks.mpr (.inl (he' ▸ ho))
    have hin : a ∈ ((r.tasks s t : List _) : Multiset _).filterMap (Task.job R.role peer.2) := by
      refine (Multiset.mem_filterMap _ _).mpr ⟨_, htask, ?_⟩
      rw [Task.job, Task.event?, Option.bind_some, if_pos rfl, ha]
    rw [hjobs] at hin
    split at hin
    · exact hin
    · cases hin
  cases o with
  | toClient => cases hoz
  | self => cases hoz
  | toServer s' e' =>
    simp only [Replicating.timeFor] at hoz
    split at hoz
    · rename_i hs
      subst hs
      split at hoz <;> rename_i hrole
      · cases hoz
        obtain ⟨id, v, hid, hv, hvu⟩ := hm.update_mem (hmem rfl (by rw [hrole]; rfl))
        exact .inl ⟨id, v, hid, hv, (congrArg (fun w : Stored c D => w.2.updateTime) hvu).symm⟩
      · split at hoz
        · cases hoz
        · rename_i hne
          cases hoz
          rcases hm.beat_mem (hmem rfl (by rw [hrole]; rfl)) with hp | hp
          · exact .inr hp
          · exact absurd hp hne
      · cases hoz
    · cases hoz

/-- What a server has sent to another is in order, and not later than its clock and than a version
that is being made. -/
structure Replicating.Outgoing (R : Replicating P D)
    (A : Config (ServerId c) (ClientId c) E σ κ)
    (h : List (Act (ServerId c) (ClientId c) E σ κ)) (s peer : ServerId c) : Prop where
  sorted : (R.sentTimes s peer h).Pairwise (· ≤ ·)
  clock : ∀ z ∈ R.sentTimes s peer h, z ≤ c.clock s A.now
  making : ∀ i u, (R.view s (A.server s)).making i = some u →
    u.updateTime ≤ c.clock s A.now ∧ ∀ z ∈ R.sentTimes s peer h, z ≤ u.updateTime

/-- Time passes, and other processes do something. -/
theorem Replicating.Outgoing.wait (hO : R.Outgoing A h s peer) (ht : A.now ≤ A'.now)
    (hs : A'.server s = A.server s) {h' : List (Act (ServerId c) (ClientId c) E σ κ)}
    (hh : R.sentTimes s peer h' = R.sentTimes s peer h) : R.Outgoing A' h' s peer := by
  constructor
  · rw [hh]
    exact hO.sorted
  · rw [hh]
    exact fun z hz => (hO.clock z hz).trans (clock_mono _ ht)
  · rw [hh, hs]
    exact fun i u hu => ⟨(hO.making i u hu).1.trans (clock_mono _ ht), (hO.making i u hu).2⟩

/-- One handler call of the sender. -/
theorem Replicating.Outgoing.serve {floor promised : Replica c → ℚ} {t : ℚ}
    {x : Task (ServerId c) (ClientId c) E} {e : E} {tb : LockTable}
    {r : Outcome (ServerId c) (ClientId c) E σ}
    {rest : Multiset (Task (ServerId c) (ClientId c) E)}
    {new : List (Task (ServerId c) (ClientId c) E)} (hO : R.Outgoing A h s peer)
    (hT : R.Tracked d s.2 A h floor promised) (hE : Exclusive R.kind A)
    (hpool : A.pool = x ::ₘ rest) (ht : A.now ≤ t) (hx : Ready s t (A.locks s) x e tb)
    (hr : P.serve s t (A.server s) e = some r) :
    R.Outgoing (A.served s t r tb rest new) (.server s t e (A.server s) r :: h) s peer := by
  obtain ⟨jobs, hm, -⟩ := R.move hr
  have hplaced := hE.placed x (by rw [hpool]; exact Multiset.mem_cons_self _ _)
  -- what is being made when the lock is given back is made by the event that comes with it
  have hreleased : R.kind e = .unlocked .mutex R.lock → ∀ i,
      (R.view s (A.server s)).making i ≠ none → R.role e = .made i := fun hk => by
    obtain ⟨ready, rfl⟩ := hx.released hplaced hk
    exact hT.making_released hE hpool
  have hclock := clock_mono s ht
  have hsent : R.sentTimes s peer (.server s t e (A.server s) r :: h) =
      R.sentTimes s peer h ++ r.outs.filterMap (R.timeFor peer) := by
    rw [Replicating.sentTimes, if_pos rfl]
  have hstate : (A.served s t r tb rest new).server s = r.state := Function.update_self _ _ _
  constructor
  · rw [hsent, List.pairwise_append]
    refine ⟨hO.sorted, List.pairwise_of_forall_mem_list fun z hz z' hz' => ?_,
      fun z hz z' hz' => ?_⟩
    · rcases Replicating.sent_time hr hz with ⟨id, u, hid, hu, rfl⟩ | ⟨hp, rfl⟩ <;>
        rcases Replicating.sent_time hr hz' with ⟨id', u', hid', hu', rfl⟩ | ⟨hp', rfl⟩
      · cases hid.symm.trans hid'
        cases hu.symm.trans hu'
        exact le_rfl
      · cases hid.symm.trans hp'
      · cases hid'.symm.trans hp
      · exact le_rfl
    · rcases Replicating.sent_time hr hz' with ⟨id, u, hid, hu, rfl⟩ | ⟨-, rfl⟩
      · exact (hO.making id u hu).2 z hz
      · exact (hO.clock z hz).trans hclock
  · intro z hz
    rw [hsent] at hz
    rcases List.mem_append.mp hz with hz | hz
    · exact (hO.clock z hz).trans hclock
    · rcases Replicating.sent_time hr hz with ⟨id, u, hid, hu, rfl⟩ | ⟨-, rfl⟩
      · exact (hO.making id u hu).1.trans hclock
      · exact le_rfl
  · rw [hstate, hsent]
    intro i u hu
    rcases hm.making_some hu with hold | ⟨⟨id, hid⟩, htime⟩
    · refine ⟨(hO.making i u hold).1.trans hclock, fun z hz => ?_⟩
      rcases List.mem_append.mp hz with hz | hz
      · exact (hO.making i u hold).2 z hz
      · -- nothing is sent while another version is being made
        exfalso
        have hne : (R.view s r.state).making i ≠ none := by rw [hu]; simp
        have hnew := hm.making hne
        rcases Replicating.sent_time hr hz with ⟨id, v, hid, hv, -⟩ | ⟨hp, -⟩
        · have hi := hreleased (R.kind_made hid) i (by rw [hold]; simp)
          rcases hnew with ⟨-, hnot⟩ | hput
          · exact hnot hi
          · cases hid.symm.trans hput
        · cases (hreleased (R.kind_promise hp) i (by rw [hold]; simp)).symm.trans hp
    · rw [htime]
      refine ⟨le_rfl, fun z hz => ?_⟩
      rcases List.mem_append.mp hz with hz | hz
      · exact (hO.clock z hz).trans hclock
      · rcases Replicating.sent_time hr hz with ⟨id', v, hid', -⟩ | ⟨hp, -⟩
        · cases hid.symm.trans hid'
        · cases hid.symm.trans hp

/-- **Sender order.**  The times that a server sends to another never decrease. -/
theorem Replicating.outgoing (h0 : R.Fresh A₀) (hr : Run P C A₀ A h) (s peer : ServerId c) :
    R.Outgoing A h s peer := by
  induction hr with
  | nil =>
    refine ⟨.nil, List.forall_mem_nil _, fun i u hu => ?_⟩
    rw [h0.view s] at hu
    cases hu
  | @cons A A' h a hrun hstep _ ih =>
    obtain ⟨floor, promised, hT⟩ := Replicating.tracks h0 (R.enforces_noDiscipline C) hrun s.2
    have hE := hrun.exclusive R.disciplined h0.exclusive
    cases hstep with
    | @serve s' t x e tb r rest new hpool ht hx hr hnew =>
      by_cases hs : s' = s
      · subst hs
        exact ih.serve hT hE hpool ht hx hr
      · refine ih.wait ht (Function.update_of_ne (Ne.symm hs) _ _) ?_
        show R.sentTimes s peer h ++ _ = _
        rw [if_neg hs, List.append_nil]
    | release hpool ht => refine ih.wait ht ?_ ?_ <;> rfl
    | client hpool ht => refine ih.wait ht ?_ ?_ <;> rfl
    | wait ht => refine ih.wait ht ?_ ?_ <;> rfl

/-! ## 2. The version vector of a receiver -/

/-- **No entry goes back**, if updates and heartbeats are handled in order, versions are later
than the heartbeats sent before and no heartbeat passes a queue.  The own entry is not seen. -/
theorem Replicating.vector_le (h0 : R.Fresh A₀) (hC : R.Enforces C d) (hr : Run P C A₀ A h)
    (hi : d.inOrder) (ho : d.beatsInOrder) (hb : d.afterBeats) (hp : d.noPassing)
    {a : Option (Act (ServerId c) (ClientId c) E σ κ)} (hs : Step P A a A') (s : ServerId c)
    (j : Replica c) :
    (R.view s (A.server s)).versionVector j ≤ (R.view s (A'.server s)).versionVector j := by
  cases hs with
  | @serve s' t x e tb r rest new hpool ht hx hserve hnew =>
    by_cases hs : s = s'
    · subst hs
      dsimp only
      rw [Function.update_self]
      obtain ⟨jobs, hm, -⟩ := R.move hserve
      generalize hl : R.view s (A.server s) = l at hm ⊢
      generalize hl' : R.view s r.state = l' at hm
      generalize hrole : R.role e = role at hm
      cases hm with
      | @raise _ q y =>
        dsimp only
        split
        · rename_i hc
          by_cases hj : j = q
          · rw [hj, Function.update_self]
            exact hc.2.le
          · rw [Function.update_of_ne hj]
        · exact le_rfl
      | @install _ u =>
        dsimp only
        split
        · by_cases hj : j = u.sourceReplica
          · obtain ⟨floor, promised, hT⟩ := Replicating.tracks h0 hC hr s.2
            have hjob : Job.install s.1 u.stored ∈ R.jobs s.2 A :=
              R.job_mem (by rw [hpool]; exact Multiset.mem_cons_self _ _) hx.event?
                (by rw [hrole]; rfl)
            rw [hj, Function.update_self, ← hl]
            exact (hT.reachable.install_ahead hi ho hb hp hjob).le
          · rw [Function.update_of_ne hj]
        · exact le_rfl
      | _ => exact le_rfl
    · dsimp only
      rw [Function.update_of_ne hs]
  | release => exact le_rfl
  | client => exact le_rfl
  | wait => exact le_rfl

/-- Updates and heartbeats come from other replicas. -/
theorem Replicating.foreign (h0 : R.Fresh A₀) (hr : Run P C A₀ A h)
    {x : Task (ServerId c) (ClientId c) E} {e : E} (hx : x ∈ A.pool)
    (he : x.event? = some (s, e)) :
    (∀ u, R.role e = .install u → u.sourceReplica ≠ s.1) ∧
      ∀ j y, R.role e = .raise j y → j ≠ s.1 := by
  obtain ⟨floor, promised, hT⟩ := Replicating.tracks h0 (R.enforces_noDiscipline C) hr s.2
  have hb := Reachable.basic hT.reachable
  constructor
  · intro u hu
    have hjob : Job.install s.1 u.stored ∈ R.jobs s.2 A := R.job_mem hx he (by rw [hu]; rfl)
    exact (hb.queue _ _ _ (hb.install _ _ hjob)).2.1
  · intro j y hj
    have hjob : Job.raise s.1 j y ∈ R.jobs s.2 A := R.job_mem hx he (by rw [hj]; rfl)
    exact hb.raise _ _ _ hjob

section Own

/-! The own entry is written by the server alone: with the clock. -/

variable {vector : σ → Replica c → ℚ}
  (hown : ∀ {s t st e r}, P.serve s t st e = some r →
    (∀ u, R.role e = .install u → u.sourceReplica ≠ s.1) →
    (∀ j y, R.role e = .raise j y → j ≠ s.1) →
      vector r.state s.1 = vector st s.1 ∨ vector r.state s.1 = c.clock s t)
  (hstart : ∀ s, vector (A₀.server s) s.1 ≤ c.clock s A₀.now)

include hown hstart

/-- The own entry is not ahead of the clock. -/
theorem Replicating.own_le_clock (h0 : R.Fresh A₀) (hr : Run P C A₀ A h) (s : ServerId c) :
    vector (A.server s) s.1 ≤ c.clock s A.now := by
  induction hr with
  | nil => exact hstart s
  | @cons A A' h a hrun hstep _ ih =>
    cases hstep with
    | @serve s' t x e tb r rest new hpool ht hx hr hnew =>
      dsimp only
      by_cases hs : s = s'
      · subst hs
        rw [Function.update_self]
        obtain ⟨hf, hb⟩ := Replicating.foreign h0 hrun
          (by rw [hpool]; exact Multiset.mem_cons_self _ _) hx.event?
        rcases hown hr hf hb with hsame | hclock
        · rw [hsame]
          exact ih.trans (clock_mono _ ht)
        · exact hclock.le
      · rw [Function.update_of_ne hs]
        exact ih.trans (clock_mono _ ht)
    | release hpool ht => exact ih.trans (clock_mono _ ht)
    | client hpool ht => exact ih.trans (clock_mono _ ht)
    | wait ht => exact ih.trans (clock_mono _ ht)

/-- **Version vectors do not go back**, under the same conditions. -/
theorem Replicating.vectors_grow
    (hview : ∀ s st j, j ≠ s.1 → (R.view s st).versionVector j = vector st j) (h0 : R.Fresh A₀)
    (hC : R.Enforces C d) (hr : Run P C A₀ A h) (hi : d.inOrder) (ho : d.beatsInOrder)
    (hb : d.afterBeats) (hp : d.noPassing) {a : Option (Act (ServerId c) (ClientId c) E σ κ)}
    (hs : Step P A a A') (s : ServerId c) (j : Replica c) :
    vector (A.server s) j ≤ vector (A'.server s) j := by
  by_cases hj : j = s.1
  · subst hj
    have hclock := Replicating.own_le_clock hown hstart h0 hr s
    cases hs with
    | @serve s' t x e tb r rest new hpool ht hx hserve hnew =>
      dsimp only
      by_cases hs : s = s'
      · subst hs
        rw [Function.update_self]
        obtain ⟨hf, hb⟩ := Replicating.foreign h0 hr
          (by rw [hpool]; exact Multiset.mem_cons_self _ _) hx.event?
        rcases hown hserve hf hb with hsame | hnow
        · exact hsame.ge
        · rw [hnow]
          exact hclock.trans (clock_mono _ ht)
      · rw [Function.update_of_ne hs]
    | release => exact le_rfl
    | client => exact le_rfl
    | wait => exact le_rfl
  · have := Replicating.vector_le h0 hC hr hi ho hb hp hs s j
    rwa [hview s _ j hj, hview s _ j hj] at this

end Own

end CCSim
