/-
# Transactions that wait for the stable time (`gr`)

A transaction whose dependencies are not stable yet waits in its slot until the stable time has
reached them.  Two functions decide when that is: `gr_process_rotx_request`, when the transaction
arrives, lets it through at `dependency_time <= gst`; `rotx_gst_update_callback`, which looks at
the waiting ones when the stable time changes, wakes it up at `dependency_time < gst`.  So a
transaction waits although the stable time has reached its dependencies if an update of the stable
time brings exactly its `dependency_time` (`gr_waits_in_vain`), and in no other case
(`gr_waits_for_gst`).
-/
import CCSim.Gr.Frames
import CCSim.Gr.Requests

namespace CCSim

variable {c : Cluster}

/-- Every transaction that waits depends on something that is not stable yet. -/
def GrAwaits (st : GrServerState c) : Prop :=
  ∀ id rotx, ptrArrayGet st.rotxStates id = some rotx → rotx.waitingGst →
    st.gst < rotx.dependencyTime

/-- No update of the stable time brings exactly the time a waiting transaction depends on. -/
def GrOvershoots : GrAct c → Prop
  | .client _ _ _ _ _ => True
  | .server s _ e st _ => ∀ gst ∈ grNextGst s st e, ∀ id rotx,
    ptrArrayGet st.rotxStates id = some rotx → rotx.waitingGst → rotx.dependencyTime ≠ gst

/-- An update wakes up the transactions it passes. -/
theorem GrAwaits.updateGst {st : GrServerState c} {gst : ℚ} (h : GrAwaits st)
    (hgst : st.gst < gst → ∀ id rotx, ptrArrayGet st.rotxStates id = some rotx →
      rotx.waitingGst → rotx.dependencyTime ≠ gst) : GrAwaits (grUpdateGst st gst).1 := by
  intro id rotx' hget hwait
  unfold grUpdateGst grRotxOnGstUpdated at hget ⊢
  split at hget
  · rename_i hlt
    rw [if_pos hlt]
    rw [ptrArrayGet_map] at hget
    obtain ⟨rotx, hrotx, rfl⟩ := Option.map_eq_some_iff.mp hget
    unfold grRotxGstUpdateCallback at hwait ⊢
    split at hwait
    · cases hwait
    · rename_i hstay
      rw [if_neg hstay]
      have hle : gst ≤ rotx.dependencyTime := not_lt.mp fun hwake => hstay ⟨hwait, hwake⟩
      exact lt_of_le_of_ne hle (hgst hlt id rotx hrotx hwait).symm
  · rename_i hle
    rw [if_neg hle]
    exact h id rotx' hget hwait

theorem GrAwaits.of_eq {st st' : GrServerState c} (h : GrAwaits st) (hgst : st'.gst = st.gst)
    (hrotx : st'.rotxStates = st.rotxStates) : GrAwaits st' := by
  intro id rotx hget hwait
  rw [hgst]
  rw [hrotx] at hget
  exact h id rotx hget hwait

/-- An event that brings a stable time updates the transactions with it. -/
theorem grProcessEvent_rotx {s : ServerId c} {st : GrServerState c} {e : GrEvent c}
    {r : GrOutcome c} {gst : ℚ} (hr : grProcessEvent s st e = some r)
    (hnext : grNextGst s st e = some gst) :
    r.state.rotxStates = (grUpdateGst st gst).1.rotxStates := by
  cases e with
  | forwardGetRequestLocked request =>
    cases hnext
    cases hr
    rfl
  | getRequestLocked id =>
    obtain ⟨getState, hget, rfl⟩ := Option.map_eq_some_iff.mp hnext
    simp only [grProcessEvent, grProcessGetRequestLocked, hget, Option.some.injEq] at hr
    subst hr
    rfl
  | getSnapshotRequestLocked id =>
    obtain ⟨snapshot, hget, rfl⟩ := Option.map_eq_some_iff.mp hnext
    simp only [grProcessEvent, grProcessGetSnapshotRequestLocked, hget, Option.some.injEq] at hr
    subst hr
    rfl
  | sliceRequestLocked request =>
    cases hnext
    cases hr
    rfl
  | sliceResponseLocked slice =>
    cases hnext
    cases hr
    rfl
  | lstFromLeafRootLocked =>
    cases hnext
    cases hr
    rfl
  | gstFromRootLocked rootGst =>
    cases hnext
    cases hr
    rfl
  | startGstComputation =>
    simp only [grNextGst] at hnext
    split at hnext
    · rename_i hroot
      cases hnext
      simp only [grProcessEvent, grProcessStartGstComputation, hroot, if_true] at hr
      split at hr <;> simp only [Option.some.injEq, reduceCtorEq] at hr
      subst hr
      rfl
    · cases hnext
  | _ => cases hnext

/-- **The step lemma.** -/
theorem GrAwaits.step {s : ServerId c} {st : GrServerState c} {e : GrEvent c} {r : GrOutcome c}
    (h : GrAwaits st) (hst : GrFormed s st) (hr : grProcessEvent s st e = some r)
    (hnext : ∀ gst ∈ grNextGst s st e, ∀ id rotx, ptrArrayGet st.rotxStates id = some rotx →
      rotx.waitingGst → rotx.dependencyTime ≠ gst) : GrAwaits r.state := by
  have hgst := grProcessEvent_nextGst hr
  cases hn : grNextGst s st e with
  | some gst =>
    have hupdate := h.updateGst fun _ => hnext gst hn
    refine hupdate.of_eq ?_ (grProcessEvent_rotx hr hn)
    rw [hgst, hn, grUpdateGst_gst]
    rfl
  | none =>
    rw [hn, Option.elim_none] at hgst
    -- without a new stable time nobody is woken up
    have hsame : ∀ {gst}, (grUpdateGst st gst).1.gst = st.gst →
        GrAwaits (grUpdateGst st gst).1 := by
      intro gst heq
      rw [grUpdateGst_gst] at heq
      rw [grUpdateGst, if_neg (not_lt.mpr (max_eq_left_iff.mp heq))]
      exact h
    cases grProcessEvent_work hr with
    | other _ _ _ _ hrotx => exact h.of_eq hgst hrotx
    | wake _ gst _ hstate =>
      rw [hstate] at hgst ⊢
      exact hsame hgst
    | getLocked => exact hsame hgst
    | snapshotLocked => exact (hsame hgst).of_eq rfl rfl
    | sliceLocked => exact hsame hgst
    | receiveLocked => exact hsame hgst
    | @rotxRequest request =>
      refine forall_ptrArrayPut h fun hwait => ?_
      simpa [GrGetRotxRequest.state] using hwait
    | receiveLast _ _ _ hrotx => exact forall_ptrArraySet h hrotx (by rintro _ ⟨⟩)
    | abroad _ hsnapshot hclient => exact absurd (hst.snapshot _ _ hsnapshot) hclient
    | _ => exact h.of_eq rfl rfl

/-- **No transaction waits for a stable time that has been reached**, as long as no update brings
exactly the time that one depends on. -/
theorem gr_waits_for_gst {setup : Setup c (GrEvent c)} {W : GrWorld c} {h : List (GrAct c)}
    (hrun : World.Run (grProgram c) setup.conf (fun _ => GrOvershoots) (grWorld setup) W h)
    (s : ServerId c) (id : ℕ) (rotx : GrRotxState c)
    (hget : ptrArrayGet (W.servers s).state.rotxStates id = some rotx) (hwait : rotx.waitingGst) :
    (W.servers s).state.gst < rotx.dependencyTime := by
  suffices hall : ∀ {M : GrMail c} {h : List (GrAct c)},
      Mail.Run (grProgram c) GrOvershoots (grWorld setup).config.mail M h →
        ∀ s, GrAwaits (M.server s) from
    hall hrun.config.mail_of_cond s id rotx hget hwait
  intro M h hr
  induction hr with
  | nil =>
    rintro s id rotx ⟨⟩
  | @cons M M' h a hr hstep hq ih =>
    cases hstep with
    | @serve s' t e r mail hev ht hserve =>
      intro s
      by_cases hs : s = s'
      · subst hs
        dsimp only
        rw [Function.update_self]
        have hst : GrFormed s { M.server s with now := t, clock := c.clock s t } :=
          ((gr_formed hr).1 s).of_eq rfl rfl rfl rfl
        have hawaits : GrAwaits { M.server s with now := t, clock := c.clock s t } :=
          (ih s).of_eq rfl rfl
        exact hawaits.step hst (grServerProcessEvent_some hserve) (hq _ rfl)
      · dsimp only
        rw [Function.update_of_ne hs]
        exact ih s
    | client => exact ih
    | wait => exact ih

/-- The test of `GrOvershoots`. -/
def grOvershootsTest :
    CallTest (ServerId c) (ClientId c) (GrEvent c) (GrServerState c) (GrClientState c)
  | _, _, .client _ _ _ _ _ => true
  | _, _, .server s _ e st _ => (grNextGst s st e).all fun gst => st.rotxStates.all fun x =>
    x.all fun rotx => !(rotx.waitingGst && decide (rotx.dependencyTime = gst))

theorem grOvershoots_tested : Cond.TestedBy (fun _ => GrOvershoots (c := c)) grOvershootsTest := by
  intro W h a htest
  cases a with
  | client => trivial
  | server s t e st r =>
    intro gst hgst id rotx hget hwait heq
    have hmem : some rotx ∈ st.rotxStates := by
      rw [ptrArrayGet, Option.join_eq_some_iff] at hget
      exact List.mem_of_getElem? hget
    simp only [grOvershootsTest, Option.mem_def.mp hgst, Option.all_some, List.all_eq_true] at htest
    simpa [hwait, heq] using htest _ hmem

theorem rat_ten_pos : (0 : ℚ) < 10 := by
  decide

theorem rat_one_pos : (0 : ℚ) < 1 := by
  decide

/-- One server that computes the stable time often and ticks rarely. -/
def solo : Cluster :=
  { smallCluster 1 1 one_lt_uintSize one_lt_uintSize fun _ _ => 0 with
    clockInterval := 10
    gstInterval := 1
    clockInterval_pos := rat_ten_pos
    gstInterval_pos := rat_one_pos }

def soloSetup : Setup solo (GrEvent solo) :=
  smallSetup _ (1 / 10) (by decide +kernel) (by decide +kernel) [(1 / 2, clientAt solo 0 0 0)]
    (by decide +kernel)

/-- A PUT, and a transaction that waits for it to be stable.  The next event is a GST
computation. -/
def waitingRun : List (ℕ × ℕ) :=
  [(2, 0), (2, 0), (2, 0), (2, 1), (3, 0), (2, 0), (2, 0), (2, 0)]

def waitingDecisions : List (ℕ × Decision) := [(0, .put 0 7), (5, .rotx [0])]

/-- The transaction in the first slot of the server, if it waits. -/
def soloWaits (W : GrWorld solo) : Option (GrRotxState solo) :=
  (ptrArrayGet (W.servers (serverAt solo 0 0)).state.rotxStates 0).filter GrRotxState.waitingGst

/-- The transaction waits, and its dependencies are not stable. -/
theorem gr_waits_for_gst_put :
    ∃ W h, World.Run (grProgram solo) soloSetup.conf (fun _ => GrOvershoots) (grWorld soloSetup)
      W h ∧ ∃ rotx, soloWaits W = some rotx ∧
        (W.servers (serverAt solo 0 0)).state.gst < rotx.dependencyTime := by
  obtain ⟨W, h, hrun, hseen⟩ := World.Run.of_replay (grProgram solo) soloSetup.conf
    (grWorld soloSetup) grOvershoots_tested (choices waitingRun waitingDecisions [])
    (fun x => (soloWaits x.1).isSome) (by decide +kernel)
  obtain ⟨rotx, hrotx⟩ := Option.isSome_iff_exists.mp hseen
  obtain ⟨hget, hwait⟩ := Option.filter_eq_some_iff.mp hrotx
  exact ⟨W, h, hrun, rotx, hrotx, gr_waits_for_gst hrun _ 0 rotx hget hwait⟩

/-- The GST computation brings exactly the time of the PUT: the transaction still waits. -/
theorem gr_waits_in_vain :
    ∃ W h, World.Run (grProgram solo) soloSetup.conf (fun _ _ => True) (grWorld soloSetup) W h ∧
      ∃ rotx, soloWaits W = some rotx ∧
        rotx.dependencyTime = (W.servers (serverAt solo 0 0)).state.gst := by
  obtain ⟨W, h, hrun, hseen⟩ := World.Run.of_replay (grProgram solo) soloSetup.conf
    (grWorld soloSetup) Cond.tested_true (choices (waitingRun ++ [(0, 1)]) waitingDecisions [])
    (fun x => (soloWaits x.1).any fun rotx =>
      decide (rotx.dependencyTime = (x.1.servers (serverAt solo 0 0)).state.gst))
    (by decide +kernel)
  obtain ⟨rotx, hrotx, hgst⟩ := (Option.any_eq_true _ _).mp hseen
  exact ⟨W, h, hrun, rotx, hrotx, of_decide_eq_true hgst⟩

end CCSim
