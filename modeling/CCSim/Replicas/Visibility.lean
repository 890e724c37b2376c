/-
# What the visibility statistics count

When the global stable time of a server goes up, statistics are taken of the versions that have
become visible.  The walk down a chain ends at the first version that was visible before, as if
everything below had been visible too.  That is so unless something visible was put on top of a
version that was not: a version that a client wrote here, or a received one that has fewer
dependencies.  And a version that is visible when it is installed is never walked over.

When none of this happens, each received version that is visible has been sampled once, and no
other version has (`Sampling.sampled`).  A sample is the real time less the update time, and so it
is negative if the version became visible before the clock of its source should have shown its
update time.
-/
import CCSim.Replicas.Reads

namespace CCSim

open Replication

variable {c : Cluster} {D E σ κ χ : Type} {P : Program (ServerId c) (ClientId c) E σ κ χ}

/-! ## 1. One chain -/

/-- `gr_stats_gst_update` and `grv_stats_gst_update`, on one chain: what is pushed to
`VISIBILITY_LATENCY`, and for which version. -/
def statsGstUpdate (now : ℚ) (oldVisible newVisible : Item (Replica c) D → Bool) :
    List (Item (Replica c) D) → List (Item (Replica c) D × ℚ)
  | [] => []
  | item :: chain =>
    if oldVisible item then []
    else (if newVisible item then [(item, now - item.updateTime)] else []) ++
      statsGstUpdate now oldVisible newVisible chain

/-- No version that is already visible lies above one that becomes visible, and no version becomes
visible ahead of time. -/
structure Uncovered (now : ℚ) (oldVisible newVisible : Item (Replica c) D → Bool)
    (chain : List (Item (Replica c) D)) : Prop where
  above : chain.Pairwise fun y x => oldVisible y → oldVisible x = false → newVisible x = false
  time : ∀ x ∈ chain, oldVisible x = false → newVisible x → x.updateTime ≤ now

instance (now : ℚ) (oldVisible newVisible : Item (Replica c) D → Bool)
    (chain : List (Item (Replica c) D)) :
    Decidable (Uncovered now oldVisible newVisible chain) :=
  decidable_of_iff (_ ∧ _) ⟨fun h => ⟨h.1, h.2⟩, fun h => ⟨h.above, h.time⟩⟩

variable {now : ℚ} {oldVisible newVisible : Item (Replica c) D → Bool}
  {item : Item (Replica c) D} {chain : List (Item (Replica c) D)}

theorem Uncovered.tail (h : Uncovered now oldVisible newVisible (item :: chain)) :
    Uncovered now oldVisible newVisible chain :=
  ⟨(List.pairwise_cons.mp h.above).2, fun x hx => h.time x (List.mem_cons_of_mem _ hx)⟩

/-- The versions that become visible are sampled. -/
theorem Uncovered.samples (h : Uncovered now oldVisible newVisible chain) :
    (statsGstUpdate now oldVisible newVisible chain).map Prod.fst =
      chain.filter fun x => !oldVisible x && newVisible x := by
  induction chain with
  | nil => rfl
  | cons item chain ih =>
    rw [statsGstUpdate]
    cases hitem : oldVisible item with
    | true =>
      -- whatever is below the item was visible, or is not visible yet
      refine (List.filter_eq_nil_iff.mpr fun x hx => ?_).symm
      rcases List.mem_cons.mp hx with rfl | hx
      · simp [hitem]
      · have habove := (List.pairwise_cons.mp h.above).1 x hx hitem
        cases hx : oldVisible x <;> simp [habove, hx]
    | false =>
      rw [List.filter_cons, hitem, ← ih h.tail]
      cases newVisible item <;> rfl

/-- No sample is negative. -/
theorem Uncovered.nonneg (h : Uncovered now oldVisible newVisible chain) :
    ∀ x ∈ statsGstUpdate now oldVisible newVisible chain, 0 ≤ x.2 := by
  induction chain with
  | nil => exact List.forall_mem_nil _
  | cons item chain ih =>
    intro x hx
    rw [statsGstUpdate] at hx
    split at hx
    · cases hx
    · rename_i hold
      rcases List.mem_append.mp hx with hx | hx
      · split at hx <;> rename_i hnew
        · obtain rfl := List.mem_singleton.mp hx
          exact sub_nonneg.mpr (h.time item List.mem_cons_self (by simpa using hold) hnew)
        · cases hx
      · exact ih h.tail x hx

/-- A chain of which more is visible. -/
theorem filter_grows {own : Item (Replica c) D → Bool} (hown : ∀ x, own x → oldVisible x)
    (hgrows : ∀ x, oldVisible x → newVisible x) :
    (chain.filter fun x => !own x && newVisible x).Perm
      ((chain.filter fun x => !own x && oldVisible x) ++
        chain.filter fun x => !oldVisible x && newVisible x) := by
  induction chain with
  | nil => exact .nil
  | cons x chain ih =>
    have hx := hown x
    have hx' := hgrows x
    cases ho : own x <;> cases hv : oldVisible x <;> cases hn : newVisible x <;>
      simp only [ho, hv, hn, List.filter_cons, Bool.not_true, Bool.not_false, Bool.true_and,
        Bool.false_and, if_true, Bool.false_eq_true, if_false, List.cons_append] at hx hx' ⊢
    · exact ih
    · -- `x` becomes visible
      exact (ih.cons x).trans List.perm_middle.symm
    · simp at hx'
    · exact ih.cons x
    · simp at hx
    · simp at hx
    · exact ih
    · exact ih

/-! ## 2. A run -/

/-- How a protocol samples: `update` is the test of what is visible under the new stable time, when
the handler of an event takes statistics, and `stats` are the samples of a key. -/
structure Sampling {R : Replicating P D} (G : Reading R) where
  update : ServerId c → σ → E → Option (Item (Replica c) D → Bool)
  stats : ServerId c → ℚ → σ → E → Key → List (Item (Replica c) D × ℚ)
  update_role : ∀ {s t st e r}, P.serve s t st e = some r → (update s st e).isSome →
    R.role e = .other
  update_visible : ∀ {s t st e r}, P.serve s t st e = some r →
    G.visible s r.state = (update s st e).getD (G.visible s st)
  stats_eq : ∀ {s t st e key}, 0 ≤ t → stats s t st e key =
    (update s st e).elim [] fun new => statsGstUpdate t (G.visible s st) new ((R.view s st).store key)
  visible_own : ∀ {s st x}, x.sourceReplica = s.1 → G.visible s st x

/-- What the server `s` has pushed to `VISIBILITY_LATENCY` for the versions of a key. -/
def Sampling.samples {R : Replicating P D} {G : Reading R} (M : Sampling G) (s : ServerId c)
    (key : Key) :
    List (Act (ServerId c) (ClientId c) E σ κ) → List (Item (Replica c) D × ℚ)
  | [] => []
  | .client _ _ _ _ _ :: h => M.samples s key h
  | .server s' t e st _ :: h => M.samples s key h ++ if s' = s then M.stats s t st e key else []

/-- The update that an event installs. -/
def Role.installs : Role c D → Option (ReplicaUpdate (Replica c) D)
  | .install u => some u
  | _ => none

/-- A handler call of `s` in which the versions of a key are counted right: a version that is
received is not visible when it is installed, and nothing visible lies above a version that becomes
visible. -/
def Sampling.Counts {R : Replicating P D} {G : Reading R} (M : Sampling G) (s : ServerId c)
    (key : Key) : Act (ServerId c) (ClientId c) E σ κ → Prop
  | .client _ _ _ _ _ => True
  | .server s' t e st _ => s' = s →
    (∀ u ∈ (R.role e).installs, u.key = key → u.sourceReplica ≠ s.1 →
      (putValue (R.view s st).store key u.item).isSome → G.visible s st u.item = false) ∧
    ∀ new ∈ M.update s st e, Uncovered t (G.visible s st) new ((R.view s st).store key)

instance {R : Replicating P D} {G : Reading R} (M : Sampling G) (s : ServerId c) (key : Key) :
    DecidablePred (M.Counts (κ := κ) s key)
  | .client _ _ _ _ _ => .isTrue trivial
  | .server _ _ _ _ _ => inferInstanceAs (Decidable (_ → _ ∧ _))

/-- The versions of a key that the server has received and shows. -/
def Reading.shown {R : Replicating P D} (G : Reading R) (s : ServerId c) (st : σ) (key : Key) :
    List (Item (Replica c) D) :=
  ((R.view s st).store key).filter fun x => !decide (x.sourceReplica = s.1) && G.visible s st x

theorem Move.other_eq {rules : UpdateRules (Replica c)} {r : Replica c} {clock : ℚ}
    {l l' : ReplicaState c D} {jobs : Multiset (Job (Stored c D) (Replica c) ℚ)}
    (h : Move rules r clock .other l l' jobs) : l' = l := by
  cases h
  rfl

theorem Move.install_store {rules : UpdateRules (Replica c)} {r : Replica c} {clock : ℚ}
    {l l' : ReplicaState c D} {jobs : Multiset (Job (Stored c D) (Replica c) ℚ)}
    {u : ReplicaUpdate (Replica c) D} (h : Move rules r clock (.install u) l l' jobs) :
    l'.store = (putValue l.store u.key u.item).getD l.store := by
  cases h
  rfl

section Run

variable {R : Replicating P D} {G : Reading R} {M : Sampling G}
  {C : Cond (ServerId c) (ClientId c) E σ κ} {A₀ A : Config (ServerId c) (ClientId c) E σ κ}
  {h : List (Act (ServerId c) (ClientId c) E σ κ)} {s : ServerId c} {t : ℚ} {st : σ} {e : E}
  {r : Outcome (ServerId c) (ClientId c) E σ} {key : Key}

/-- A handler that takes no statistics shows no more received versions than before. -/
theorem Sampling.shown_install (hserve : P.serve s t st e = some r)
    (hcounts : M.Counts s key (.server s t e st r : Act (ServerId c) (ClientId c) E σ κ))
    (hnone : M.update s st e = none) : G.shown s r.state key = G.shown s st key := by
  have hvisible : G.visible s r.state = G.visible s st := by
    rw [M.update_visible hserve, hnone, Option.getD_none]
  obtain ⟨jobs, hm, -⟩ := R.move hserve
  rw [Reading.shown, Reading.shown, hvisible]
  rcases hm.store key with hsame | ⟨x, hcons, hx⟩
  · rw [hsame]
  · rw [hcons, List.filter_cons_of_neg]
    rcases hx with ⟨-, hown, -⟩ | ⟨u, hrole, hu⟩
    · simp [hown]
    · -- a received version on top of the chain is not visible
      by_cases hown : x.sourceReplica = s.1
      · simp [hown]
      · obtain ⟨rfl, rfl⟩ := Prod.mk.inj hu
        have hinstalls : u ∈ (R.role e).installs := by
          rw [hrole]
          rfl
        have hput : (putValue (R.view s st).store u.key u.item).isSome := by
          by_contra hdiscarded
          have hnone := Option.not_isSome_iff_eq_none.mp hdiscarded
          have hstore := Move.install_store (hrole ▸ hm)
          simp [hstore, hnone] at hcons
        rw [(hcounts rfl).1 u hinstalls rfl hown hput]
        simp

/-- What a server shows grows by the versions that are sampled. -/
theorem Sampling.shown_update {new : Item (Replica c) D → Bool}
    (hserve : P.serve s t st e = some r) (hsome : M.update s st e = some new)
    (huncovered : Uncovered t (G.visible s st) new ((R.view s st).store key)) :
    (G.shown s r.state key).Perm (G.shown s st key ++
      (statsGstUpdate t (G.visible s st) new ((R.view s st).store key)).map Prod.fst) := by
  have hvisible : G.visible s r.state = new := by
    rw [M.update_visible hserve, hsome, Option.getD_some]
  have hstore : (R.view s r.state).store = (R.view s st).store := by
    obtain ⟨jobs, hm, -⟩ := R.move hserve
    rw [M.update_role hserve (hsome ▸ rfl)] at hm
    rw [Move.other_eq hm]
  rw [huncovered.samples, Reading.shown, Reading.shown, hstore, hvisible]
  refine filter_grows (fun x hx => ?_) fun x hx => ?_
  · exact M.visible_own (of_decide_eq_true hx)
  · exact hvisible ▸ G.visible_grows hserve x hx

/-- **What the statistics count.**  If the versions of a key are counted right in every handler call
of a run, then every received version that is visible has been sampled once, no other version has
been sampled, and no sample is negative. -/
theorem Sampling.sampled (h0 : 0 ≤ A₀.now)
    (hfresh : ∀ s key, (R.view s (A₀.server s)).store key = [])
    (hC : ∀ v a, C v a → M.Counts s key a) (hr : Run P C A₀ A h) :
    ((M.samples s key h).map Prod.fst).Perm (G.shown s (A.server s) key) ∧
      ∀ x ∈ M.samples s key h, 0 ≤ x.2 := by
  suffices hall : 0 ≤ A.now ∧ ((M.samples s key h).map Prod.fst).Perm
      (G.shown s (A.server s) key) ∧ ∀ x ∈ M.samples s key h, 0 ≤ x.2 from hall.2
  induction hr with
  | nil =>
    refine ⟨h0, ?_, List.forall_mem_nil _⟩
    rw [Reading.shown, hfresh]
    exact .nil
  | @cons A A' h a hrun hstep hc ih =>
    obtain ⟨hnow, hcount, hnonneg⟩ := ih
    cases hstep with
    | release hpool ht => exact ⟨hnow.trans ht, hcount, hnonneg⟩
    | client hpool ht => exact ⟨hnow.trans ht, hcount, hnonneg⟩
    | wait ht => exact ⟨hnow.trans ht, hcount, hnonneg⟩
    | @serve s' t x e tb r rest new hpool ht hx hserve hnew =>
      refine ⟨hnow.trans ht, ?_⟩
      have hcounts := hC _ _ (hc _ rfl)
      show ((M.samples s key h ++ _).map Prod.fst).Perm _ ∧
        ∀ x ∈ M.samples s key h ++ _, 0 ≤ x.2
      dsimp only
      by_cases hs : s' = s
      · subst hs
        rw [if_pos rfl, Function.update_self, M.stats_eq (hnow.trans ht)]
        cases hupdate : M.update s' (A.server s') e with
        | none =>
          rw [Option.elim_none, List.append_nil, Sampling.shown_install hserve hcounts hupdate]
          exact ⟨hcount, hnonneg⟩
        | some new =>
          have huncovered := (hcounts rfl).2 new hupdate
          rw [Option.elim_some, List.map_append]
          refine ⟨(hcount.append_right _).trans
            (Sampling.shown_update hserve hupdate huncovered).symm, fun x hx => ?_⟩
          rcases List.mem_append.mp hx with hx | hx
          · exact hnonneg x hx
          · exact huncovered.nonneg x hx
      · rw [if_neg hs, List.append_nil, Function.update_of_ne (Ne.symm hs)]
        exact ⟨hcount, hnonneg⟩

end Run

end CCSim
