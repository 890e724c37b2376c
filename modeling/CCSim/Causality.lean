/-
# Causality

In both protocols a version has a later time than every version it depends on (`causality`), whatever
the clocks of the servers are: a PUT whose dependencies are ahead of the clock is put off, once at most
(`put_deferred_once`).

The runs are those in which a handler that asks for a lock takes some time before it does.  A PUT is
compared with the clock before the lock and stamped after it, so without that time it could be stamped
at its dependency time.  The simulations whose timing functions draw positive times are such runs
(`simulations_timely`).
-/
import CCSim.Gr.Causality
import CCSim.Grv.Causality
import CCSim.Statistics
import CCSim.Timing

namespace CCSim

variable {c : Cluster}

/-! ## 1. Versions depend on earlier ones -/

section View

variable {E σ κ O : Type} {view : PutView c E σ κ O}
  {P : Program (ServerId c) (ClientId c) E σ κ Decision}
  {conf : SimConfig (ServerId c) (ClientId c) E} {W₀ W : World (ServerId c) (ClientId c) E σ κ}
  {h : List (Act (ServerId c) (ClientId c) E σ κ)}

theorem PutView.Known.before_lt (hview : view.Known P W₀.config.mail)
    (hr : World.TimelyRun P conf W₀ W h) {v w : Version (Replica c)} (hb : view.Before h v w) :
    v.updateTime < w.updateTime := by
  obtain ⟨T, hT, -⟩ := hr.timed
  exact hT.before_lt (W₀.timed_timed.1.symm ▸ hview) hb

theorem PutView.Known.sends_between (hview : view.Known P W₀.config.mail)
    (hr : World.TimelyRun P conf W₀ W h) {k : ClientId c}
    {later mid past : List (Act (ServerId c) (ClientId c) E σ κ)}
    {a b : Act (ServerId c) (ClientId c) E σ κ} (hh : h = later ++ b :: (mid ++ a :: past))
    (ha : view.defers k a = true) (hb : view.defers k b = true) :
    ∃ x ∈ mid, view.sends k x = true := by
  obtain ⟨T, hT, -⟩ := hr.timed
  by_contra hnone
  push Not at hnone
  refine hT.deferred_once (W₀.timed_timed.1.symm ▸ hview) hh hb (view.deferred_append ha ?_)
  exact fun x hx => eq_false_of_ne_true (hnone x hx)

/-- The versions a run has written, each with one that its writer had learned of before. -/
def PutView.dependencies (view : PutView c E σ κ O) :
    List (Act (ServerId c) (ClientId c) E σ κ) → List (Version (Replica c) × Version (Replica c))
  | [] => []
  | a :: past => (view.writes a).toList.flatMap (fun x =>
      past.flatMap fun b => (view.learned x.1 b).map fun v => (v, x.2)) ++ view.dependencies past

theorem PutView.before_of_mem {v w : Version (Replica c)} (hvw : (v, w) ∈ view.dependencies h) :
    view.Before h v w := by
  suffices hsuffix : ∀ l, l <:+ h → (v, w) ∈ view.dependencies l → view.Before h v w from
    hsuffix h List.suffix_rfl hvw
  intro l hl hmem
  induction l with
  | nil => cases hmem
  | cons a past ih =>
    rcases List.mem_append.mp hmem with hmem | hmem
    · obtain ⟨x, hx, hmem⟩ := List.mem_flatMap.mp hmem
      obtain ⟨b, hb, hmem⟩ := List.mem_flatMap.mp hmem
      obtain ⟨u, hu, huv⟩ := List.mem_map.mp hmem
      cases huv
      obtain ⟨later, hh⟩ := hl
      exact .direct hh.symm (Option.mem_toList.mp hx) hb hu
    · exact ih ((List.suffix_cons a past).trans hl) hmem

end View

/-- **Causality.**  In every timely run of `gr` and of `grv`, a version is later than all versions it
depends on. -/
theorem causality (c : Cluster) :
    (∀ (setup : Setup c (GrEvent c)) (W : GrWorld c) (h : List (GrAct c)),
      World.TimelyRun (grProgram c) setup.conf (grWorld setup) W h →
        ∀ v w, (grPutView c).Before h v w → v.updateTime < w.updateTime) ∧
    ∀ (setup : Setup c (GrvEvent c)) (W : GrvWorld c) (h : List (GrvAct c)),
      World.TimelyRun (grvProgram c) setup.conf (grvWorld setup) W h →
        ∀ v w, (grvPutView c).Before h v w → v.updateTime < w.updateTime :=
  ⟨fun setup _ _ hr _ _ => (grPutView_known setup).before_lt hr,
  fun setup _ _ hr _ _ => (grvPutView_known setup).before_lt hr⟩

/-- One replica of two partitions; the clock of the first is a second ahead. -/
def skewedDuo : Cluster := smallCluster 1 2 one_lt_uintSize two_lt_uintSize fun _ p => 1 - p

def skewedDuoSetup (E : Type) : Setup skewedDuo E :=
  smallSetup E (1 / 10) (by decide +kernel) (by decide +kernel)
    [(1 / 2, clientAt skewedDuo 0 0 0)] (by decide +kernel)

/-- A client of the first partition PUTs at both partitions in turn, twice. -/
def alternatingRun : List (Choice Decision) :=
  choices
    [(3, 0), (3, 0), (3, 0), (3, 1), (4, 0), (3, 0), (3, 1), (4, 0), (3, 1), (4, 0), (0, 1), (1, 0),
      (4, 0), (3, 0), (3, 1), (4, 0), (1, 0), (3, 0), (3, 1), (4, 0), (3, 1), (4, 0), (3, 0), (3, 0),
      (3, 0), (3, 1), (4, 0), (1, 1), (1, 1), (3, 0), (4, 0), (1, 0), (3, 1), (4, 0), (3, 1), (4, 0)]
    [(0, .put 0 7), (5, .put 1 8), (22, .put 0 9), (31, .put 1 10)] []

/-- What is seen at the end of the run: the client of the first partition has written at the first
partition and then at the second one. -/
def PutView.seesDependency {E σ κ O : Type} (view : PutView skewedDuo E σ κ O)
    (x : World (ServerId skewedDuo) (ClientId skewedDuo) E σ κ ×
      List (Act (ServerId skewedDuo) (ClientId skewedDuo) E σ κ)) : Bool :=
  (view.dependencies x.2).any fun y => decide (y.1.key = 0 ∧ y.2.key = 1)

theorem PutView.exists_dependency {E σ κ O : Type} {view : PutView skewedDuo E σ κ O}
    {W : World (ServerId skewedDuo) (ClientId skewedDuo) E σ κ}
    {h : List (Act (ServerId skewedDuo) (ClientId skewedDuo) E σ κ)}
    (hseen : view.seesDependency (W, h) = true) :
    ∃ v w, view.Before h v w ∧ v.key = 0 ∧ w.key = 1 := by
  obtain ⟨⟨v, w⟩, hvw, hkeys⟩ := List.any_eq_true.mp hseen
  exact ⟨v, w, PutView.before_of_mem hvw, of_decide_eq_true hkeys⟩

/-- Choices none of which is slow take time. -/
theorem choices_timely (steps : List (ℕ × ℕ)) (decisions : List (ℕ × Decision)) :
    ∀ ch ∈ choices steps decisions [], 0 < ch.draws.sum + ch.last := by
  intro ch hch
  obtain ⟨x, -, rfl⟩ := List.mem_map.mp hch
  have hdraws : 0 ≤ (List.replicate x.1.2 (1 / 100 : ℚ)).sum := by
    simp only [List.sum_replicate, nsmul_eq_mul]
    positivity
  change 0 < (List.replicate x.1.2 (1 / 100 : ℚ)).sum + 1 / 100
  linarith

theorem alternatingRun_timely : ∀ c ∈ alternatingRun, 0 < c.draws.sum + c.last :=
  choices_timely _ _

/-- The version at the second partition is later, although the clock there is a second behind. -/
theorem causality_skewed :
    (∃ W h, World.TimelyRun (grProgram skewedDuo) (skewedDuoSetup _).conf
        (grWorld (skewedDuoSetup _)) W h ∧
      ∃ v w, (grPutView skewedDuo).Before h v w ∧ v.key = 0 ∧ w.key = 1 ∧
        v.updateTime < w.updateTime) ∧
    ∃ W h, World.TimelyRun (grvProgram skewedDuo) (skewedDuoSetup _).conf
        (grvWorld (skewedDuoSetup _)) W h ∧
      ∃ v w, (grvPutView skewedDuo).Before h v w ∧ v.key = 0 ∧ w.key = 1 ∧
        v.updateTime < w.updateTime := by
  constructor
  · obtain ⟨W, h, hrun, hseen⟩ := World.TimelyRun.of_replay (grProgram skewedDuo)
      (skewedDuoSetup _).conf (grWorld (skewedDuoSetup _)) alternatingRun alternatingRun_timely
      (grPutView skewedDuo).seesDependency (by decide +kernel)
    obtain ⟨v, w, hb, hv, hw⟩ := PutView.exists_dependency hseen
    exact ⟨W, h, hrun, v, w, hb, hv, hw, (causality skewedDuo).1 _ W h hrun v w hb⟩
  · obtain ⟨W, h, hrun, hseen⟩ := World.TimelyRun.of_replay (grvProgram skewedDuo)
      (skewedDuoSetup _).conf (grvWorld (skewedDuoSetup _)) alternatingRun alternatingRun_timely
      (grvPutView skewedDuo).seesDependency (by decide +kernel)
    obtain ⟨v, w, hb, hv, hw⟩ := PutView.exists_dependency hseen
    exact ⟨W, h, hrun, v, w, hb, hv, hw, (causality skewedDuo).2 _ W h hrun v w hb⟩

/-! ## 2. PUTs from the future -/

/-- **A PUT is put off once at most.**  Between two handler calls that put off a PUT of a client, the
client has sent another PUT. -/
theorem put_deferred_once (c : Cluster) :
    (∀ (setup : Setup c (GrEvent c)) (W : GrWorld c) (h : List (GrAct c)),
      World.TimelyRun (grProgram c) setup.conf (grWorld setup) W h →
        ∀ k later b mid a past, h = later ++ b :: (mid ++ a :: past) →
          (grPutView c).defers k a = true → (grPutView c).defers k b = true →
            ∃ x ∈ mid, (grPutView c).sends k x = true) ∧
    ∀ (setup : Setup c (GrvEvent c)) (W : GrvWorld c) (h : List (GrvAct c)),
      World.TimelyRun (grvProgram c) setup.conf (grvWorld setup) W h →
        ∀ k later b mid a past, h = later ++ b :: (mid ++ a :: past) →
          (grvPutView c).defers k a = true → (grvPutView c).defers k b = true →
            ∃ x ∈ mid, (grvPutView c).sends k x = true :=
  ⟨fun setup _ _ hr _ _ _ _ _ _ hh ha hb => (grPutView_known setup).sends_between hr hh ha hb,
  fun setup _ _ hr _ _ _ _ _ _ hh ha hb => (grvPutView_known setup).sends_between hr hh ha hb⟩

/-- Two elements that are counted are there at two places. -/
theorem exists_two_of_countP {α : Type} {p : α → Bool} {l : List α} (h : 2 ≤ l.countP p) :
    ∃ later b mid a past, l = later ++ b :: (mid ++ a :: past) ∧ p a = true ∧ p b = true := by
  induction l with
  | nil => cases h
  | cons x l ih =>
    rw [List.countP_cons] at h
    split at h
    · rename_i hx
      obtain ⟨a, ha, hpa⟩ := List.countP_pos_iff.mp (Nat.le_of_succ_le_succ h)
      obtain ⟨mid, past, hl⟩ := List.append_of_mem ha
      exact ⟨[], x, mid, a, past, by rw [hl]; rfl, hpa, hx⟩
    · obtain ⟨later, b, mid, a, past, hl, hp⟩ := ih h
      exact ⟨x :: later, b, mid, a, past, by rw [hl]; rfl, hp⟩

/-- Both PUTs at the second partition are put off. -/
theorem put_deferred_once_skewed :
    (∃ W h, World.TimelyRun (grProgram skewedDuo) (skewedDuoSetup _).conf
        (grWorld (skewedDuoSetup _)) W h ∧
      ∃ k later b mid a past, h = later ++ b :: (mid ++ a :: past) ∧
        (grPutView skewedDuo).defers k a = true ∧ (grPutView skewedDuo).defers k b = true ∧
          ∃ x ∈ mid, (grPutView skewedDuo).sends k x = true) ∧
    ∃ W h, World.TimelyRun (grvProgram skewedDuo) (skewedDuoSetup _).conf
        (grvWorld (skewedDuoSetup _)) W h ∧
      ∃ k later b mid a past, h = later ++ b :: (mid ++ a :: past) ∧
        (grvPutView skewedDuo).defers k a = true ∧ (grvPutView skewedDuo).defers k b = true ∧
          ∃ x ∈ mid, (grvPutView skewedDuo).sends k x = true := by
  constructor
  · obtain ⟨W, h, hrun, hseen⟩ := World.TimelyRun.of_replay (grProgram skewedDuo)
      (skewedDuoSetup _).conf (grWorld (skewedDuoSetup _)) alternatingRun alternatingRun_timely
      (fun x => decide (2 ≤ x.2.countP ((grPutView skewedDuo).defers (clientAt skewedDuo 0 0 0))))
      (by decide +kernel)
    obtain ⟨later, b, mid, a, past, hh, ha, hb⟩ := exists_two_of_countP (of_decide_eq_true hseen)
    exact ⟨W, h, hrun, _, later, b, mid, a, past, hh, ha, hb,
      (put_deferred_once skewedDuo).1 _ W h hrun _ later b mid a past hh ha hb⟩
  · obtain ⟨W, h, hrun, hseen⟩ := World.TimelyRun.of_replay (grvProgram skewedDuo)
      (skewedDuoSetup _).conf (grvWorld (skewedDuoSetup _)) alternatingRun alternatingRun_timely
      (fun x => decide (2 ≤ x.2.countP ((grvPutView skewedDuo).defers (clientAt skewedDuo 0 0 0))))
      (by decide +kernel)
    obtain ⟨later, b, mid, a, past, hh, ha, hb⟩ := exists_two_of_countP (of_decide_eq_true hseen)
    exact ⟨W, h, hrun, _, later, b, mid, a, past, hh, ha, hb,
      (put_deferred_once skewedDuo).2 _ W h hrun _ later b mid a past hh ha hb⟩

/-! ## 3. Simulations with seeds -/

/-- Simulations are timely runs, if the timing functions draw positive times. -/
theorem simulations_timely (U : Type) (i : ℚ) (n : ℕ) :
    (∀ (Z : GrSeededSetup c U) (X : GrSim c), Z.random.Positive → grRun Z i n = some X →
      ∃ h, World.TimelyRun (grProgram c) Z.setup.conf (grWorld Z.setup) X.world h) ∧
    ∀ (Z : GrvSeededSetup c U) (X : GrvSim c), Z.random.Positive → grvRun Z i n = some X →
      ∃ h, World.TimelyRun (grvProgram c) Z.setup.conf (grvWorld Z.setup) X.world h :=
  ⟨fun Z _ hpos hX => Simulator.run_timely (M := grSimulator Z i)
    (fun _ _ _ _ _ _ h => grCalls_describes (grServerProcessEvent_some h)) hpos hX,
  fun Z _ hpos hX => Simulator.run_timely (M := grvSimulator Z i)
    (fun _ _ _ _ _ _ h => grvCalls_describes (grvServerProcessEvent_some h)) hpos hX⟩

end CCSim
