/-
# What the GETs of a server return over time

A chain has its latest version on top, and what is visible at a server stays visible: so the latest
visible version of a key only gets later (`Reading.value_le`), whoever asks for it and whatever
stable time comes with the request.  What the two protocols call visible is a parameter
(`Reading`).
-/
import CCSim.Replicas.Results

namespace CCSim

open Replication

variable {c : Cluster} {D E σ κ χ : Type} {P : Program (ServerId c) (ClientId c) E σ κ χ}

/-! ## 1. The latest visible item of a chain -/

/-- Every item of the chain is at least as late as those below it, and later than 0. -/
def Descending (chain : List (Item (Replica c) D)) : Prop :=
  chain.Pairwise (fun x y => y.updateTime ≤ x.updateTime) ∧ ∀ x ∈ chain, 0 < x.updateTime

/-- The item that is found is as late as any that is visible. -/
theorem Descending.le_find {chain : List (Item (Replica c) D)} (hd : Descending chain)
    {p : Item (Replica c) D → Bool} {y : Item (Replica c) D} (hy : y ∈ chain) (hp : p y) :
    y.updateTime ≤ updateTimeOf (chain.find? p) := by
  obtain ⟨hd, -⟩ := hd
  induction hd with
  | nil => cases hy
  | @cons x l hx hd ih =>
    by_cases hpx : p x
    · rw [List.find?_cons_of_pos hpx]
      rcases List.mem_cons.mp hy with rfl | hy
      · exact le_rfl
      · exact hx y hy
    · rw [List.find?_cons_of_neg hpx]
      rcases List.mem_cons.mp hy with rfl | hy
      · exact absurd hp hpx
      · exact ih hy

/-- What is found gets later when the chain grows and more of it is visible. -/
theorem Descending.find_le {chain chain' : List (Item (Replica c) D)} (hd : Descending chain')
    (hs : chain <:+ chain') {p q : Item (Replica c) D → Bool} (hpq : ∀ x, p x → q x) :
    updateTimeOf (chain.find? p) ≤ updateTimeOf (chain'.find? q) := by
  cases hf : chain.find? p with
  | none =>
    -- nothing was visible; what is found now is later than 0
    cases hg : chain'.find? q with
    | none => exact le_rfl
    | some y => exact (hd.2 y (List.mem_of_find?_eq_some hg)).le
  | some x =>
    have hx : p x := List.find?_some hf
    exact hd.le_find (hs.subset (List.mem_of_find?_eq_some hf)) (hpq x hx)

/-! ## 2. The chains of a server -/

/-- A move puts nothing on top of a chain that is older than what it covers. -/
theorem Move.store_sorted {rules : UpdateRules (Replica c)} {r : Replica c} {clock : ℚ}
    {role : Role c D} {l l' : ReplicaState c D}
    {jobs : Multiset (Job (Stored c D) (Replica c) ℚ)} (hm : Move rules r clock role l l' jobs)
    {k : Key} (hs : (l.store k).Pairwise fun x y => y.updateTime ≤ x.updateTime) :
    (l'.store k).Pairwise fun x y => y.updateTime ≤ x.updateTime := by
  -- what is not older than the first item is not older than the others
  have hcons : ∀ x : Item (Replica c) D, (∀ y ∈ (l.store k).head?, y.updateTime ≤ x.updateTime) →
      (x :: l.store k).Pairwise fun x y => y.updateTime ≤ x.updateTime := by
    intro x hx
    refine List.pairwise_cons.mpr ⟨fun z hz => ?_, hs⟩
    cases hc : l.store k with
    | nil => rw [hc] at hz; cases hz
    | cons y chain =>
      rw [hc] at hx hz hs
      have hy := hx y rfl
      rcases List.mem_cons.mp hz with rfl | hz
      · exact hy
      · exact ((List.pairwise_cons.mp hs).1 z hz).trans hy
  cases hm with
  | put id u hr ht hh =>
    by_cases hk : k = u.key
    · subst hk
      dsimp only
      rw [Function.update_self]
      refine hcons _ fun y hy => (hh y hy).trans ?_
      exact ht.ge
    · dsimp only
      rw [Function.update_of_ne hk]
      exact hs
  | @install _ u =>
    dsimp only
    cases hput : putValue l.store u.key u.item with
    | none => exact hs
    | some store =>
      obtain ⟨rfl, hhead⟩ := putValue_some hput
      rw [Option.getD_some]
      by_cases hk : k = u.key
      · subst hk
        rw [Function.update_self]
        exact hcons _ hhead
      · rw [Function.update_of_ne hk]
        exact hs
  | _ => exact hs

variable {R : Replicating P D} {C : Cond (ServerId c) (ClientId c) E σ κ}
  {A₀ A A' : Config (ServerId c) (ClientId c) E σ κ}
  {h : List (Act (ServerId c) (ClientId c) E σ κ)}

theorem Replicating.sorted (h0 : R.Fresh A₀) (hr : Run P C A₀ A h) (s : ServerId c) (k : Key) :
    ((R.view s (A.server s)).store k).Pairwise fun x y => y.updateTime ≤ x.updateTime := by
  induction hr with
  | nil =>
    rw [h0.view s]
    exact .nil
  | @cons A A' h a hrun hstep _ ih =>
    cases hstep with
    | @serve s' t x e tb r rest new hpool ht hx hserve hnew =>
      dsimp only
      by_cases hs : s = s'
      · subst hs
        rw [Function.update_self]
        obtain ⟨jobs, hm, -⟩ := R.move hserve
        exact hm.store_sorted ih
      · rw [Function.update_of_ne hs]
        exact ih
    | release => exact ih
    | client => exact ih
    | wait => exact ih

/-- The chains of a server, in every state. -/
theorem Replicating.descending (h0 : R.Fresh A₀) (hr : Run P C A₀ A h) (s : ServerId c) (k : Key) :
    Descending ((R.view s (A.server s)).store k) := by
  refine ⟨Replicating.sorted h0 hr s k, fun x hx => ?_⟩
  obtain ⟨floor, promised, hT⟩ := Replicating.tracks h0 (R.enforces_noDiscipline C) hr s.2
  have hb := Reachable.basic hT.reachable
  have hmem : ((k, x) : Stored c D) ∈
      (assemble (R.replicas s.2 A) floor promised (R.jobs s.2 A)).chain s.1 k :=
    List.mem_map_of_mem hx
  exact (hb.own _ _ _ (hb.chain _ _ _ hmem) rfl).1

/-! ## 3. Reading -/

/-- What a server reads for a GET: `visible` is what it can see, `answer` the key and the time
of the version that a handler returns with what it sends. -/
structure Reading (R : Replicating P D) where
  visible : ServerId c → σ → Item (Replica c) D → Bool
  answer : E → Out (ServerId c) (ClientId c) E → Option (Key × ℚ)
  visible_grows : ∀ {s t st e r}, P.serve s t st e = some r →
    ∀ x, visible s st x → visible s r.state x
  answer_read : ∀ {s t st e r}, P.serve s t st e = some r → ∀ o ∈ r.outs,
    ∀ kz ∈ answer e o, kz.2 = updateTimeOf
      (getValueAt (R.view s r.state).store kz.1 (visible s r.state))

/-- The times of the versions that the server `s` has returned for this key, in the order in which
it has returned them. -/
def Reading.times {R : Replicating P D} (G : Reading R) (s : ServerId c) (key : Key) :
    List (Act (ServerId c) (ClientId c) E σ κ) → List ℚ
  | [] => []
  | .client _ _ _ _ _ :: h => G.times s key h
  | .server s' _ e _ r :: h => G.times s key h ++
      if s' = s then ((r.outs.filterMap (G.answer e)).filter fun kz => kz.1 = key).map Prod.snd
      else []

variable (G : Reading R)

/-- The time of the version that a GET of the key would return now. -/
def Reading.value (A : Config (ServerId c) (ClientId c) E σ κ) (s : ServerId c) (key : Key) : ℚ :=
  updateTimeOf (getValueAt (R.view s (A.server s)).store key (G.visible s (A.server s)))

/-- A step makes it later. -/
theorem Reading.value_le (h0 : R.Fresh A₀) (hr : Run P C A₀ A' h)
    {a : Option (Act (ServerId c) (ClientId c) E σ κ)} (hs : Step P A a A') (s : ServerId c)
    (key : Key) : G.value A s key ≤ G.value A' s key := by
  refine (Replicating.descending h0 hr s key).find_le (R.store_step hs s key) ?_
  cases hs with
  | @serve s' t x e tb r rest new hpool ht hx hserve hnew =>
    dsimp only
    by_cases hs : s = s'
    · subst hs
      rw [Function.update_self]
      exact G.visible_grows hserve
    · rw [Function.update_of_ne hs]
      exact fun _ h => h
  | release => exact fun _ h => h
  | client => exact fun _ h => h
  | wait => exact fun _ h => h

/-- **What GETs return never gets older.** -/
theorem Reading.sorted (h0 : R.Fresh A₀) (hr : Run P C A₀ A h) (s : ServerId c) (key : Key) :
    (G.times s key h).Pairwise (· ≤ ·) ∧ ∀ z ∈ G.times s key h, z ≤ G.value A s key := by
  induction hr with
  | nil => exact ⟨.nil, List.forall_mem_nil _⟩
  | @cons A A' h a hrun hstep hc ih =>
    obtain ⟨hsorted, hle⟩ := ih
    have hgrow := G.value_le h0 (hrun.cons hstep hc) hstep s key
    have hold : ∀ z ∈ G.times s key h, z ≤ G.value A' s key := fun z hz => (hle z hz).trans hgrow
    cases hstep with
    | @serve s' t x e tb r rest new hpool ht hx hserve hnew =>
      by_cases hs : s' = s
      · subst hs
        -- what is returned in this step is read in the state after it
        have hnew : ∀ z ∈ ((r.outs.filterMap (G.answer e)).filter fun kz => kz.1 = key).map
            Prod.snd, z = G.value (A.served s' t r tb rest new) s' key := by
          intro z hz
          obtain ⟨kz, hkz, rfl⟩ := List.mem_map.mp hz
          obtain ⟨hkz, hkey⟩ := List.mem_filter.mp hkz
          obtain ⟨o, ho, hok⟩ := List.mem_filterMap.mp hkz
          obtain rfl := of_decide_eq_true hkey
          have hstate : (A.served s' t r tb rest new).server s' = r.state :=
            Function.update_self _ _ _
          rw [Reading.value, hstate]
          exact G.answer_read hserve o ho kz hok
        show (G.times s' key h ++ _).Pairwise _ ∧ ∀ z ∈ G.times s' key h ++ _, _
        rw [if_pos rfl, List.pairwise_append]
        refine ⟨⟨hsorted, ?_, fun z hz z' hz' => ?_⟩, fun z hz => ?_⟩
        · refine List.pairwise_of_forall_mem_list fun z hz z' hz' => ?_
          rw [hnew z hz, hnew z' hz']
        · rw [hnew z' hz']
          exact hold z hz
        · rcases List.mem_append.mp hz with hz | hz
          · exact hold z hz
          · exact (hnew z hz).le
      · show (G.times s key h ++ _).Pairwise _ ∧ ∀ z ∈ G.times s key h ++ _, _
        rw [if_neg hs, List.append_nil]
        exact ⟨hsorted, hold⟩
    | release => exact ⟨hsorted, hold⟩
    | client => exact ⟨hsorted, hold⟩
    | wait => exact ⟨hsorted, hold⟩

end CCSim
