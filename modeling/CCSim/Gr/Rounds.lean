/-
# Rounds of the global stable time in `gr`

What the handlers of `gr_process_start_gst_computation`, `gr_process_lst_from_leaf` and
`gr_process_gst_from_root` do to the rounds, and that no other handler takes part in them
(`grServerProcessEvent_rounds`).  So every run of the protocol obeys the law of the rounds
(`gr_rounds`).
-/
import CCSim.RoundView
import CCSim.Gr.Frames
import CCSim.Gr.Requests

namespace CCSim

open RoundView

variable {c : Cluster}

/-- The rounds of `gr`: a partition contributes the least entry of its version vector. -/
def grRounds (c : Cluster) : RoundView c (GrEvent c) (GrServerState c) ℚ where
  lstReceived st := st.lstReceived
  minimum st := st.minLst
  token p
    | .startGstComputation => some (.start p)
    | .lstFromLeaf leafLst => some (.up leafLst.leafPartitionId leafLst.lst)
    | .lstFromLeafRootLocked => some .closed
    | .lstFromLeafRootUnlocked => some (.down c.root)
    | .gstFromRoot _ => some (.down p)
    | .gstFromRootLocked _ => some (.down p)
    | .gstFromRootUnlocked _ => some (.down p)
    | _ => none
  contributed s st
    | .startGstComputation =>
      if isLeafPartition s.2 ∧ s.2.val ≠ 0 then [grMinReplicaVersion st] else []
    | .lstFromLeaf _ =>
      if countLstReceived c st.lstReceived =
        (numChildrenPartitions s.2 + uintSize - 1) % uintSize then [grMinReplicaVersion st] else []
    | _ => []
  reads
    | .lstFromLeafRootLocked => true
    | _ => false

variable {s : ServerId c} {st : GrServerState c} {e : GrEvent c} {r : GrOutcome c}

@[simp]
theorem grUpdateGst_lstReceived (st : GrServerState c) (gst : ℚ) :
    (grUpdateGst st gst).1.lstReceived = st.lstReceived := by
  unfold grUpdateGst grRotxOnGstUpdated
  split <;> rfl

@[simp]
theorem grUpdateGst_minLst (st : GrServerState c) (gst : ℚ) :
    (grUpdateGst st gst).1.minLst = st.minLst := by
  unfold grUpdateGst grRotxOnGstUpdated
  split <;> rfl

/-- Only a value from a child changes the flags and the minimum. -/
theorem grProcessEvent_flags (h : grProcessEvent s st e = some r)
    (he : ∀ leafLst, e ≠ .lstFromLeaf leafLst) :
    r.state.lstReceived = st.lstReceived ∧ r.state.minLst = st.minLst := by
  cases e <;> simp only [grProcessEvent, grProcessGetRequest, grProcessForwardGetRequestLocked,
    grProcessGetRequestLocked, grProcessGetRequestUnlocked, grProcessGetResponse,
    grProcessPutRequest, grProcessPutRequestLocked, grPutOutcome, grProcessPutRequestUnlocked,
    grProcessPutResponse, grProcessReplicaUpdate, grProcessReplicaUpdateLocked,
    grProcessReplicaUpdateUnlocked, grReplicaUpdateOutcome,
    grProcessLstFromLeafRootLocked, grProcessLstFromLeafRootUnlocked,
    grProcessStartGstComputation, grProcessGstFromRoot, grProcessGstFromRootLocked,
    grProcessGstFromRootUnlocked, grProcessGetSnapshotRequest, grProcessGetSnapshotRequestLocked,
    grProcessGetSnapshotRequestUnlocked, grProcessSliceRequest, grProcessSliceRequestLocked,
    grProcessSliceRequestUnlocked, grProcessSliceResponse, grProcessSliceResponseLocked,
    grProcessSliceResponseUnlocked, grSendSnapshotResponse, grProcessRotxSnapshotResponse,
    grProcessRotxRequest, grProcessClockTick, grProcessClockTickLocked,
    grProcessClockTickUnlocked, grProcessHeartbeat, grProcessHeartbeatLocked,
    Option.map_eq_some_iff] at h <;>
  grind [grUpdateGst_lstReceived, grUpdateGst_minLst]

/-- What a later stable time wakes up are requests for snapshots. -/
theorem grUpdateGst_ignored {gst : ℚ} {o : GrOut c} (ho : o ∈ (grUpdateGst st gst).2) :
    (grRounds c).Ignores o.event := by
  obtain ⟨_, rotx, -, rfl⟩ := grUpdateGst_out ho
  exact fun _ => rfl

theorem grSend_ignored {lpid : Lpid c} (he : (grRounds c).Ignores e) :
    (grRounds c).Ignores (grSend lpid e).event := by
  cases lpid <;> exact he

/-- A slice that is received. -/
theorem grProcessSliceResponseUnlocked_ignored {slice : GrSliceResponse c}
    (h : grProcessSliceResponseUnlocked s st slice = some r) :
    (r.placed s).filterMap (grRounds c).tokenAt = [] := by
  simp only [grProcessSliceResponseUnlocked] at h
  split at h
  · cases h
  · split at h
    · unfold grSendSnapshotResponse at h
      split at h
      · unfold grProcessRotxSnapshotResponse at h
        split at h
        · cases h
        · cases h
          exact placed_ignored (forall_mem_singleton_ignored fun _ => rfl) nothing_ignored
      · cases h
        exact placed_ignored (forall_mem_singleton_ignored (grSend_ignored fun _ => rfl))
          nothing_ignored
    · cases h
      exact placed_ignored (List.forall_mem_nil _) nothing_ignored

theorem grProcessSliceRequestUnlocked_ignored {request : GrSliceRequest c}
    (h : grProcessSliceRequestUnlocked s st request = some r) :
    (r.placed s).filterMap (grRounds c).tokenAt = [] := by
  simp only [grProcessSliceRequestUnlocked] at h
  split at h
  · cases h
    exact placed_ignored (forall_mem_singleton_ignored fun _ => rfl) nothing_ignored
  · cases h

/-- Replication and heartbeats. -/
theorem grReplicaUpdateOutcome_ignored (st : GrServerState c) (source : Replica c)
    (r : List (GrReplicaUpdate c) × Option (GrReplicaUpdate c)) :
    ((grReplicaUpdateOutcome st source r).placed s).filterMap (grRounds c).tokenAt = [] := by
  refine placed_ignored (List.forall_mem_nil _) fun e he => ?_
  simp only [grReplicaUpdateOutcome] at he
  split at he
  · cases he
  · cases he
    exact fun _ => rfl

theorem grProcessClockTickUnlocked_ignored {sendTime : Bool}
    (h : grProcessClockTickUnlocked s st sendTime = some r) :
    (r.placed s).filterMap (grRounds c).tokenAt = [] := by
  cases h
  refine placed_ignored (fun o ho => ?_) nothing_ignored
  rcases List.mem_append.mp ho with ho | ho
  · obtain ⟨_, -, rfl⟩ := List.mem_map.mp ho
    exact fun _ => rfl
  · rw [List.mem_singleton.mp ho]
    exact fun _ => rfl

/-- The stable time is updated under the lock. -/
theorem grUpdate_ignored {gst : ℚ} {state : GrServerState c} {cont : Cont (GrEvent c)}
    (hcont : ∀ e ∈ cont.event?, (grRounds c).Ignores e) :
    (({ state := state, outs := (grUpdateGst st gst).2, cont := cont } :
      GrOutcome c).placed s).filterMap (grRounds c).tokenAt = [] :=
  placed_ignored (fun _ ho => grUpdateGst_ignored ho) hcont

/-- **Events that have nothing to do with the rounds leave such events behind.** -/
theorem grProcessEvent_ignored (h : grProcessEvent s st e = some r) (he : (grRounds c).Ignores e) :
    (r.placed s).filterMap (grRounds c).tokenAt = [] := by
  cases e with
  | lstFromLeaf | lstFromLeafRootLocked | lstFromLeafRootUnlocked | startGstComputation
  | gstFromRoot | gstFromRootLocked | gstFromRootUnlocked => cases he c.root
  | getSnapshotResponse | rotxResponse | clientTick => cases h
  | getRequest request =>
    simp only [grProcessEvent, grProcessGetRequest] at h
    split at h
    · split at h
      · cases h
      · cases h
        refine placed_ignored (forall_mem_singleton_ignored fun _ => rfl) fun e he => ?_
        split at he <;> cases he
        exact fun _ => rfl
    · split at h
      · cases h
        exact cont_ignored (next_ignored fun _ => rfl)
      · simp only [grProcessGetRequestUnlocked] at h
        split at h
        · cases h
        · split at h
          · cases h
            exact out_ignored (grSend_ignored fun _ => rfl)
          · cases h
  | forwardGetRequestLocked request =>
    cases h
    exact grUpdate_ignored nothing_ignored
  | sliceResponse slice =>
    simp only [grProcessEvent, grProcessSliceResponse] at h
    split at h
    · cases h
      exact cont_ignored (next_ignored fun _ => rfl)
    · exact grProcessSliceResponseUnlocked_ignored h
  | sliceResponseUnlocked slice => exact grProcessSliceResponseUnlocked_ignored h
  | replicaUpdate update =>
    obtain ⟨a, -, rfl⟩ := Option.map_eq_some_iff.mp h
    exact grReplicaUpdateOutcome_ignored st update.sourceReplica a
  | replicaUpdateUnlocked update =>
    obtain ⟨a, -, rfl⟩ := Option.map_eq_some_iff.mp h
    exact grReplicaUpdateOutcome_ignored st update.sourceReplica a
  | replicaUpdateLocked update =>
    simp only [grProcessEvent, grProcessReplicaUpdateLocked] at h
    split at h
    · cases h
      exact cont_ignored (next_ignored fun _ => rfl)
    · cases h
  | clockTick =>
    simp only [grProcessEvent, grProcessClockTick] at h
    split at h
    · cases h
      exact cont_ignored (next_ignored fun _ => rfl)
    · exact grProcessClockTickUnlocked_ignored h
  | clockTickLocked =>
    simp only [grProcessEvent, grProcessClockTickLocked] at h
    split at h <;> cases h <;> exact cont_ignored (next_ignored fun _ => rfl)
  | clockTickUnlocked sendTime => exact grProcessClockTickUnlocked_ignored h
  | heartbeat heartbeat =>
    cases h
    refine cont_ignored fun e he => ?_
    split at he <;> cases he
    exact fun _ => rfl
  | heartbeatLocked heartbeat =>
    cases h
    exact cont_ignored nothing_ignored
  | sliceRequest request =>
    simp only [grProcessEvent, grProcessSliceRequest] at h
    split at h
    · cases h
      exact cont_ignored (next_ignored fun _ => rfl)
    · exact grProcessSliceRequestUnlocked_ignored h
  | sliceRequestUnlocked request => exact grProcessSliceRequestUnlocked_ignored h
  | putRequest request =>
    cases grProcessEvent_work h with
    | other he | wake he => exact he.elim
    | sliceServe he => simp at he
    | receive he | receiveLast he | abroad he => simp at he
    | putForward => exact out_ignored fun _ => rfl
    | putDefer => exact out_ignored fun _ => rfl
    | putOpen => exact cont_ignored (next_ignored fun _ => rfl)
  | getResponse | putResponse =>
    cases h
    exact out_ignored fun _ => rfl
  | sliceRequestLocked | sliceResponseLocked =>
    cases h
    exact grUpdate_ignored (next_ignored fun _ => rfl)
  | getSnapshotRequest request =>
    cases h
    exact cont_ignored (next_ignored fun _ => rfl)
  | rotxRequest request =>
    cases h
    refine placed_ignored (fun o ho => ?_) nothing_ignored
    split at ho
    · cases ho
    · rw [List.mem_singleton.mp ho]
      exact fun _ => rfl
  | getRequestLocked id =>
    simp only [grProcessEvent, grProcessGetRequestLocked] at h
    split at h <;> cases h
    exact grUpdate_ignored (next_ignored fun _ => rfl)
  | getSnapshotRequestLocked id =>
    simp only [grProcessEvent, grProcessGetSnapshotRequestLocked] at h
    split at h <;> cases h
    exact grUpdate_ignored (next_ignored fun _ => rfl)
  | getRequestUnlocked id =>
    simp only [grProcessEvent, grProcessGetRequestUnlocked] at h
    split at h
    · cases h
    · split at h <;> cases h
      exact out_ignored (grSend_ignored fun _ => rfl)
  | putRequestLocked id =>
    simp only [grProcessEvent, grProcessPutRequestLocked] at h
    split at h
    · cases h
    · split at h <;> cases h
      exact cont_ignored (next_ignored fun _ => rfl)
  | putRequestUnlocked id =>
    simp only [grProcessEvent, grProcessPutRequestUnlocked] at h
    split at h
    · cases h
    · split at h <;> cases h
      refine placed_ignored (fun o ho => ?_) nothing_ignored
      rcases List.mem_cons.mp ho with rfl | ho
      · exact grSend_ignored fun _ => rfl
      · split at ho
        · cases ho
        · obtain ⟨_, -, rfl⟩ := List.mem_map.mp ho
          exact fun _ => rfl
  | getSnapshotRequestUnlocked id =>
    simp only [grProcessEvent, grProcessGetSnapshotRequestUnlocked] at h
    split at h <;> cases h
    refine placed_ignored (fun o ho => ?_) nothing_ignored
    obtain ⟨_, _, rfl⟩ := List.mem_mapIdx.mp ho
    exact fun _ => rfl

/-! ## 2. The handlers of the rounds -/

theorem foldl_isLeast {R : Type} (v : R → ℚ) (l : List R) (m : ℚ) :
    IsLeast {x | x = m ∨ ∃ i ∈ l, v i = x}
      (l.foldl (fun m i => if v i < m then v i else m) m) := by
  induction l generalizing m with
  | nil =>
    refine ⟨.inl rfl, ?_⟩
    rintro x (rfl | ⟨i, hi, -⟩)
    · exact le_rfl
    · cases hi
  | cons j l ih =>
    obtain ⟨hmem, hle⟩ := ih (if v j < m then v j else m)
    rw [List.foldl_cons]
    constructor
    · rcases hmem with hmem | ⟨i, hi, hmem⟩
      · rw [hmem]
        split
        · exact .inr ⟨j, List.mem_cons_self, rfl⟩
        · exact .inl rfl
      · exact .inr ⟨i, List.mem_cons_of_mem j hi, hmem⟩
    · have hstart := hle (.inl rfl)
      rintro x (rfl | ⟨i, hi, rfl⟩)
      · refine hstart.trans ?_
        split
        · rename_i hlt
          exact hlt.le
        · exact le_rfl
      · rcases List.mem_cons.mp hi with rfl | hi
        · refine hstart.trans ?_
          split
          · exact le_rfl
          · rename_i hle
            exact not_lt.mp hle
        · exact hle (.inr ⟨i, hi, rfl⟩)

/-- `min_replica_version` is the least entry. -/
theorem grMinReplicaVersion_isLeast (st : GrServerState c) :
    IsLeast (Set.range st.versionVector) (grMinReplicaVersion st) := by
  obtain ⟨hmem, hle⟩ := foldl_isLeast st.versionVector (List.finRange c.numReplicas)
    (st.versionVector c.replica0)
  constructor
  · rcases hmem with hmem | ⟨i, -, hmem⟩
    · exact ⟨c.replica0, hmem.symm⟩
    · exact ⟨i, hmem⟩
  · rintro _ ⟨i, rfl⟩
    exact hle (.inr ⟨i, List.mem_finRange i, rfl⟩)

/-- What an update of the stable time wakes up leaves no token behind. -/
theorem grUpdateGst_tokens {gst : ℚ} {state : GrServerState c} {outs : List (GrOut c)}
    {cont : Cont (GrEvent c)} :
    (({ state := state, outs := (grUpdateGst st gst).2 ++ outs, cont := cont } :
      GrOutcome c).placed s).filterMap (grRounds c).tokenAt =
        (({ state := state, outs := outs, cont := cont } : GrOutcome c).placed s).filterMap
          (grRounds c).tokenAt := by
  have hnone : ((grUpdateGst st gst).2.map fun o => (o.place s, o.event)).filterMap
      (grRounds c).tokenAt = [] := outs_ignored fun _ ho => grUpdateGst_ignored ho
  simp only [Outcome.placed, List.map_append, List.append_assoc, List.filterMap_append, hnone,
    List.nil_append]

/-- The clocks of a server do not matter. -/
theorem GstWork.of_clock {t u : ℚ}
    (hw : GstWork (grRounds c) s { st with now := t, clock := u } e r) :
    GstWork (grRounds c) s st e r := by
  cases hw with
  | other he hf hm hnew hc hr => exact .other he hf hm hnew (by cases e <;> exact hc) hr
  | same t he hf hm hnew hc hr => exact .same t he hf hm hnew (by cases e <;> exact hc) hr
  | start v he hleaf hroot hf hm hnew hc hr =>
    exact .start v he hleaf hroot hf hm hnew (by cases e <;> exact hc) hr
  | note p v he hheard hf hm hnew hc hr =>
    exact .note p v he hheard hf hm hnew (by cases e <;> exact hc) hr
  | complete p v w he hheard hlast hf hm hnew hc hr =>
    exact .complete p v w he hheard hlast hf hm hnew (by cases e <;> exact hc) hr
  | readMinimum he hf hm hnew hc hr =>
    exact .readMinimum he hf hm hnew (by cases e <;> exact hc) hr
  | tell he hleaf hf hm hnew hc hr => exact .tell he hleaf hf hm hnew (by cases e <;> exact hc) hr
  | restart he hleaf hf hm hnew hc hr =>
    exact .restart he hleaf hf hm hnew (by cases e <;> exact hc) hr

/-- An event that has nothing to do with the rounds. -/
theorem GstWork.of_ignored (h : grProcessEvent s st e = some r) (he : (grRounds c).Ignores e)
    (hc : (grRounds c).contributed s st e = []) (hr : (grRounds c).reads e = false) :
    GstWork (grRounds c) s st e r := by
  obtain ⟨hflags, hmin⟩ := grProcessEvent_flags h (by rintro leafLst rfl; cases he c.root)
  exact .other (he s.2) hflags hmin (grProcessEvent_ignored h he) hc hr

theorem grProcessStartGstComputation_rounds (h : grProcessStartGstComputation s st = some r) :
    GstWork (grRounds c) s st .startGstComputation r := by
  unfold grProcessStartGstComputation at h
  split at h
  · rename_i hleaf
    split at h
    · rename_i hroot
      have heq : some (⟨(grUpdateGst st (st.versionVector c.replica0)).1,
          (grUpdateGst st (st.versionVector c.replica0)).2 ++ [grScheduleGstComputationStart c],
          false, .done⟩ : GrOutcome c) = some r := h
      cases heq
      refine .same (.start s.2) rfl (grUpdateGst_lstReceived _ _) (grUpdateGst_minLst _ _) ?_
        (if_neg fun hne => hne.2 hroot) rfl
      rw [grUpdateGst_tokens]
      rfl
    · rename_i hroot
      cases h
      exact .start (grMinReplicaVersion st) rfl hleaf (ne_root_iff.mpr hroot) rfl rfl rfl
        (if_pos ⟨hleaf, hroot⟩) rfl
  · cases h

theorem grProcessLstFromLeaf_rounds {leafLst : GrLstFromLeaf c}
    (h : grProcessLstFromLeaf s st leafLst = some r) :
    GstWork (grRounds c) s st (.lstFromLeaf leafLst) r := by
  unfold grProcessLstFromLeaf at h
  dsimp only at h
  split at h
  · cases h
  · rename_i hassert
    rw [not_or] at hassert
    have hheard : st.lstReceived (childPartitionIndex c leafLst.leafPartitionId) = false :=
      eq_false_of_ne_true hassert.2
    split at h
    · rename_i hlast
      -- the last child has contributed, and the partition adds its own value
      have hc : (grRounds c).contributed s st (.lstFromLeaf leafLst) = [grMinReplicaVersion st] :=
        if_pos hlast
      have hmin : ∀ m : ℚ, (if grMinReplicaVersion st < m then grMinReplicaVersion st else m) =
          min (grMinReplicaVersion st) m := fun m => by
        rw [min_def_lt]
      split at h
      · rename_i hroot
        cases h
        refine .complete leafLst.leafPartitionId leafLst.lst (grMinReplicaVersion st) rfl hheard
          hlast rfl (hmin _) ?_ hc rfl
        rw [if_pos (Fin.ext hroot)]
        rfl
      · rename_i hroot
        unfold grSendLstToParent at h
        split at h
        · cases h
        cases h
        refine .complete leafLst.leafPartitionId leafLst.lst (grMinReplicaVersion st) rfl hheard
          hlast rfl (hmin _) ?_ hc rfl
        rw [if_neg (ne_root_iff.mpr hroot), ← hmin]
        rfl
    · rename_i hmore
      cases h
      exact .note leafLst.leafPartitionId leafLst.lst rfl hheard rfl rfl rfl (if_neg hmore) rfl

/-- The result is told to every child. -/
theorem grSendGst_tokens {state : GrServerState c} {rootGst : GrGstFromRoot} :
    (({ state := state, outs := grSendGst s rootGst } : GrOutcome c).placed s).filterMap
      (grRounds c).tokenAt = (childrenPartitions s.2).map fun p => ((s.1, p), .down p) := by
  rw [Outcome.placed, grSendGst, List.map_map]
  exact (congrArg _ (List.append_nil _)).trans
    (RoundView.filterMap_tokenAt (fun _ => rfl) (childrenPartitions s.2))

/-- **What every handler does for the rounds.** -/
theorem grProcessEvent_rounds (h : grProcessEvent s st e = some r)
    (hplaced : ∀ x, (grRounds c).token s.2 e = some x → RoundView.Placed (s, x)) :
    GstWork (grRounds c) s st e r := by
  cases e with
  | startGstComputation => exact grProcessStartGstComputation_rounds h
  | lstFromLeaf leafLst => exact grProcessLstFromLeaf_rounds h
  | lstFromLeafRootLocked =>
    have heq : some (⟨(grUpdateGst st st.minLst).1, (grUpdateGst st st.minLst).2, false,
        .unlock .mutex grLock (some .lstFromLeafRootUnlocked)⟩ : GrOutcome c) = some r := h
    cases heq
    refine .readMinimum rfl (grUpdateGst_lstReceived _ _) (grUpdateGst_minLst _ _) ?_ rfl rfl
    rw [← List.append_nil (grUpdateGst _ _).2, grUpdateGst_tokens, (hplaced _ rfl).1]
    rfl
  | lstFromLeafRootUnlocked =>
    cases h
    obtain ⟨hroot, hmany⟩ := hplaced _ rfl
    refine .tell (congrArg (some ∘ RoundToken.down) hroot) ?_ rfl rfl ?_ rfl rfl
    · rw [← hroot]
      exact root_not_leaf hmany
    · exact grSendGst_tokens
  | gstFromRoot rootGst =>
    cases h
    exact .same (.down s.2) rfl rfl rfl rfl rfl rfl
  | gstFromRootLocked rootGst =>
    have heq : some (⟨(grUpdateGst st rootGst.gst).1, (grUpdateGst st rootGst.gst).2, false,
        .unlock .mutex grLock (some (.gstFromRootUnlocked rootGst))⟩ : GrOutcome c) = some r := h
    cases heq
    refine .same (.down s.2) rfl (grUpdateGst_lstReceived _ _) (grUpdateGst_minLst _ _) ?_ rfl rfl
    rw [← List.append_nil (grUpdateGst _ _).2, grUpdateGst_tokens]
    rfl
  | gstFromRootUnlocked rootGst =>
    simp only [grProcessEvent, grProcessGstFromRootUnlocked] at h
    split at h
    · rename_i hleaf
      cases h
      exact .restart rfl hleaf rfl rfl rfl rfl rfl
    · rename_i hleaf
      cases h
      exact .tell rfl (eq_false_of_ne_true hleaf) rfl rfl grSendGst_tokens rfl rfl
  | _ => exact .of_ignored h (fun _ => rfl) rfl rfl

theorem grServerProcessEvent_rounds {t : ℚ} (h : grServerProcessEvent s t st e = some r)
    (hplaced : ∀ x, (grRounds c).token s.2 e = some x → RoundView.Placed (s, x)) :
    GstWork (grRounds c) s st e r :=
  (grProcessEvent_rounds (grServerProcessEvent_some h) hplaced).of_clock

/-- No client takes part. -/
theorem GrAsk.ignored {k : ClientId c} {st : GrClientState c}
    {x : (ServerId c ⊕ ClientId c) × GrEvent c} (h : GrAsk k st x) : (grRounds c).Ignores x.2 := by
  cases h <;> exact fun _ => rfl

/-! ## 3. Every run -/

/-- What a run keeps of the rounds. -/
theorem gr_rounds_kept {setup : Setup c (GrEvent c)} {Q : GrAct c → Prop} {M : GrMail c}
    {h : List (GrAct c)} (hr : Mail.Run (grProgram c) Q (grWorld setup).config.mail M h) :
    (grRounds c).Kept M h := by
  have hstart : (grRounds c).Kept (grWorld setup).config.mail [] :=
    RoundView.kept_start (fun _ => rfl) (fun _ => rfl) (fun _ => rfl)
  refine RoundView.kept (grServerProcessEvent_rounds ·) ?_ hstart hr
  intro k t x st e r h y hy
  obtain ⟨_, -, -, hasks⟩ := grClientProcessEvent_asks h
  exact tokenAt_ignored (hasks y hy).ignored

/-- **The law of the rounds holds in every data center, whatever the order of the events.** -/
theorem gr_rounds {setup : Setup c (GrEvent c)} {Q : GrAct c → Prop} {M : GrMail c}
    {h : List (GrAct c)} (hr : Mail.Run (grProgram c) Q (grWorld setup).config.mail M h)
    (r : Replica c) : RoundLaw (grRounds c) r M h :=
  (gr_rounds_kept hr).law r

end CCSim
