/-
# Rounds of the global stable times, in both protocols

Every run of either protocol obeys the law of the rounds (`RoundLaw`): the assertions on the values
that arrive hold, a partition is never more than one round ahead of its parent, and when the root is
about to read the minimum it is the one of this round, in which every partition has contributed once
(`stable_time_rounds`).
-/
import CCSim.Gr.Coverage
import CCSim.Gr.Rounds
import CCSim.Grv.Coverage
import CCSim.Grv.Rounds
import CCSim.Replay

namespace CCSim

variable {c : Cluster}

/-! ## 1. The law -/

/-- **The aggregation of the stable times goes round by round**, in `gr` with the least entries of
the version vectors and in `grv` for every entry. -/
theorem stable_time_rounds (c : Cluster) :
    (∀ (setup : Setup c (GrEvent c)) (C : GrCond c) (W : GrWorld c) (h : List (GrAct c)),
      World.Run (grProgram c) setup.conf C (grWorld setup) W h → ∀ r,
        RoundLaw (grRounds c) r W.config.mail h) ∧
    (∀ st : GrServerState c, IsLeast (Set.range st.versionVector) (grMinReplicaVersion st)) ∧
    ∀ (setup : Setup c (GrvEvent c)) (C : GrvCond c) (W : GrvWorld c) (h : List (GrvAct c)),
      World.Run (grvProgram c) setup.conf C (grvWorld setup) W h → ∀ i r,
        RoundLaw (grvRounds c i) r W.config.mail h :=
  ⟨fun _ _ _ _ hrun r => gr_rounds (hrun.config.mail (Q := fun _ => True) fun _ _ => trivial) r,
  fun st => grMinReplicaVersion_isLeast st,
  fun _ _ _ _ hrun i r =>
    grv_rounds (hrun.config.mail (Q := fun _ => True) fun _ _ => trivial) i r⟩

/-! ## 2. A round of three partitions -/

/-- An event that is about to be handled, and the token it stands for. -/
def RoundView.seesClosed {E σ κ V : Type} (view : RoundView c E σ V) (s : ServerId c)
    (W : World (ServerId c) (ClientId c) E σ κ) : Bool :=
  W.events.any fun ev => match (ev.2.task ev.1).bind Task.placed? with
    | some (.inl s', e) => decide (s' = s) && (match view.token s.2 e with
      | some .closed => true
      | _ => false)
    | _ => false

theorem RoundView.exists_closed {E σ κ V : Type} {view : RoundView c E σ V} {s : ServerId c}
    {W : World (ServerId c) (ClientId c) E σ κ} (h : view.seesClosed s W = true) :
    ∃ e, (.inl s, e) ∈ W.config.mail.events ∧ view.token s.2 e = some .closed := by
  obtain ⟨ev, hev, hx⟩ := List.any_eq_true.mp h
  split at hx
  · rename_i s' e htask
    rw [Bool.and_eq_true, decide_eq_true_eq] at hx
    obtain ⟨rfl, hclosed⟩ := hx
    obtain ⟨task, htask, hplaced⟩ := Option.bind_eq_some_iff.mp htask
    refine ⟨e, (Multiset.mem_filterMap _ _).mpr ⟨task, ?_, hplaced⟩, ?_⟩
    · exact Multiset.mem_add.mpr (.inl (List.mem_filterMap.mpr ⟨ev, hev, htask⟩))
    · split at hclosed
      · assumption
      · cases hclosed
  · cases hx

theorem start_le_trio_clockInterval : 2 / 5 ≤ trio.clockInterval := by
  norm_num [trio, smallCluster]

theorem start_le_trio_gstInterval : 2 / 5 ≤ trio.gstInterval := by
  norm_num [trio]

theorem start_le_writer : ∀ x ∈ [((1 / 2 : ℚ), clientAt trio 0 1 0)], 2 / 5 ≤ x.1 := by
  simp only [List.forall_mem_cons, List.not_mem_nil, false_implies, implies_true, and_true]
  norm_num

/-- A client that writes at the second partition. -/
def writerSetup (E : Type) : Setup trio E :=
  smallSetup E (1 / 100) start_le_trio_clockInterval start_le_trio_gstInterval
    [(1 / 2, clientAt trio 0 1 0)] start_le_writer

/-- A PUT at the second partition, and the first round up to where the root waits for the lock. -/
def roundRun : List (Choice Decision) :=
  choices
    [(4, 0), (4, 0), (4, 0), (4, 1), (4, 0), (4, 0), (0, 0), (0, 1), (1, 0), (1, 0), (3, 0), (2, 0),
      (2, 1), (2, 1), (3, 0), (4, 0), (0, 1), (3, 1), (3, 0), (3, 0), (3, 0)]
    [(0, .put 1 7)] []

/-- What is seen at the end: the root is about to read its first minimum, which is the time of the
PUT. -/
def RoundView.readsFirst {E σ κ : Type} (view : RoundView trio E σ ℚ)
    (x : World (ServerId trio) (ClientId trio) E σ κ ×
      List (Act (ServerId trio) (ClientId trio) E σ κ)) : Bool :=
  view.seesClosed (trio.replica0, trio.root) x.1 &&
    decide (view.minimum (x.1.servers (trio.replica0, trio.root)).state = 13 / 25 ∧
      view.rounds trio.replica0 x.2 = 0)

/-- Every partition has contributed once, and the minimum is 13/25. -/
def RoundView.FirstRound {E σ κ : Type} (view : RoundView trio E σ ℚ)
    (h : List (Act (ServerId trio) (ClientId trio) E σ κ)) : Prop :=
  (∀ p, (view.contributions (trio.replica0, p) h).length = 1) ∧
    IsLeast {v | ∃ p, (view.contributions (trio.replica0, p) h).head? = some v} (13 / 25)

theorem RoundLaw.firstRound {E σ κ : Type} {view : RoundView trio E σ ℚ}
    {W : World (ServerId trio) (ClientId trio) E σ κ}
    {h : List (Act (ServerId trio) (ClientId trio) E σ κ)}
    (hlaw : RoundLaw view trio.replica0 W.config.mail h) (hseen : view.readsFirst (W, h) = true) :
    view.FirstRound h := by
  rw [RoundView.readsFirst, Bool.and_eq_true, decide_eq_true_eq] at hseen
  obtain ⟨hclosed, hminimum, hrounds⟩ := hseen
  obtain ⟨e, hev, htoken⟩ := RoundView.exists_closed hclosed
  obtain ⟨hlength, hleast⟩ := hlaw.read e hev htoken
  rw [hrounds] at hlength
  refine ⟨hlength, ?_⟩
  rw [← hminimum]
  exact hleast

theorem stable_time_rounds_three :
    (∃ W h, World.Run (grProgram trio) (writerSetup _).conf (fun _ _ => True)
      (grWorld (writerSetup _)) W h ∧ (grRounds trio).FirstRound h) ∧
    ∃ W h, World.Run (grvProgram trio) (writerSetup _).conf (fun _ _ => True)
      (grvWorld (writerSetup _)) W h ∧ (grvRounds trio trio.replica0).FirstRound h := by
  obtain ⟨W, h, hrun, hseen⟩ := World.Run.of_replay (grProgram trio) (writerSetup _).conf
    (grWorld (writerSetup _)) Cond.tested_true roundRun (grRounds trio).readsFirst (by decide +kernel)
  obtain ⟨W', h', hrun', hseen'⟩ := World.Run.of_replay (grvProgram trio) (writerSetup _).conf
    (grvWorld (writerSetup _)) Cond.tested_true roundRun (grvRounds trio trio.replica0).readsFirst
    (by decide +kernel)
  exact ⟨⟨W, h, hrun, ((stable_time_rounds trio).1 _ _ W h hrun _).firstRound hseen⟩,
    W', h', hrun', ((stable_time_rounds trio).2.2 _ _ W' h' hrun' _ _).firstRound hseen'⟩

end CCSim
