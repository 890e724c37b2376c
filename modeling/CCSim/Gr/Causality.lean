/-
# What versions depend on in `gr`

The protocol as a `PutView`.  A client depends on what its `dependency_time` covers, which is the
latest time of the answers it got (`update_times`); a PUT brings it along, and the server that holds
the key compares it with its clock before it asks for the lock.
-/
import CCSim.Gr.Discipline
import CCSim.Gr.StateIds
import CCSim.PutView

namespace CCSim

variable {c : Cluster} {s : ServerId c} {st : GrServerState c} {e : GrEvent c} {r : GrOutcome c}

/-! ## 1. The view -/

def GrEvent.putTime : GrEvent c → Option (PutTime c)
  | .putRequest request => some ⟨request.client, request.key, request.dependencyTime⟩
  | _ => none

def GrEvent.putLocked : GrEvent c → Option ℕ
  | .putRequestLocked id => some id
  | _ => none

def GrObject.writer : GrObject c → Option (ClientId c × Key × Value)
  | .put key value _ client _ => some (client, key, value)
  | _ => none

/-- The versions that an answer tells of. -/
def GrEvent.told : GrEvent c → List (GrVersion c)
  | .getResponse response => readVersion response.key response.read
  | .putResponse response => [response.written]
  | .rotxResponse response => response.reads.flatMap fun read => readVersion read.key read.item
  | _ => []

def grPutView (c : Cluster) :
    PutView c (GrEvent c) (GrServerState c) (GrClientState c) (GrObject c) where
  requests := grRequestView c
  states := grStateView c
  request := GrEvent.putTime
  locked := GrEvent.putLocked
  writer := GrObject.writer
  bound := GrClientState.dependencyTime
  told := GrEvent.told

/-! ## 2. Servers -/

/-- The time of an answer to a GET or a PUT is that of its version. -/
def GrEvent.TellsTime : GrEvent c → Prop
  | .getResponse response => response.updateTimestamp = updateTimeOf response.read
  | .putResponse response => response.written.updateTime = response.updateTimestamp
  | _ => True

/-- An event that no PUT begins with, and that tells the time of its version. -/
def GrEvent.Plain (e : GrEvent c) : Prop :=
  e.TellsTime ∧ e.putTime = none ∧ e.putLocked = none

theorem GrEvent.Other.plain (h : e.Other) : e.Plain := by
  cases e <;> first | exact h.elim | exact ⟨trivial, rfl, rfl⟩

theorem grUpdateGst_plain (st : GrServerState c) (gst : ℚ) :
    ∀ o ∈ (grUpdateGst st gst).2, o.event.Plain := by
  intro o ho
  obtain ⟨id, rotx, -, rfl⟩ := grUpdateGst_out ho
  exact ⟨trivial, rfl, rfl⟩

theorem grSend_plain {lpid : Lpid c} (h : e.Plain) : (grSend lpid e).event.Plain := by
  rwa [grSend_event]

/-- A PUT is forwarded, put off, or opened. -/
theorem grProcessPutRequest_serves {t : ℚ} {request : GrPutRequest c}
    (h : grProcessPutRequest s { st with now := t, clock := c.clock s t } request = some r) :
    (grPutView c).Serves s t (.putRequest request) r := by
  unfold grProcessPutRequest at h
  dsimp only at h
  split at h
  · rename_i hkey
    split at h <;> cases h
    refine ⟨List.forall_mem_singleton.mpr ⟨rfl, ?_⟩, by rintro _ ⟨⟩, by rintro _ ⟨⟩⟩
    rintro _ ⟨⟩
    exact ⟨rfl, .forward hkey⟩
  · rename_i hkey
    split at h <;> cases h
    · rename_i hlt
      refine ⟨List.forall_mem_singleton.mpr ⟨rfl, ?_⟩, by rintro _ ⟨⟩, by rintro _ ⟨⟩⟩
      rintro _ ⟨⟩
      exact ⟨rfl, .defer (not_not.mp hkey) hlt⟩
    · rename_i hle
      refine ⟨List.forall_mem_nil _, ?_, ?_⟩
      · rintro _ ⟨⟩
        rfl
      · rintro _ ⟨⟩ _ ⟨⟩
        refine ⟨⟨_, _, rfl⟩, _, rfl, not_lt.mp hle, fun o ho y hy => ?_⟩
        -- the slot that was free is that of the request
        obtain ⟨putState, hget, rfl⟩ := Option.map_eq_some_iff.mp ho
        rw [ptrArrayPut_get, if_pos rfl] at hget
        cases hget
        cases hy
        rfl

/-- No other handler leaves a PUT behind, and answers tell the time of their versions. -/
theorem GrWork.plain (hw : GrWork s st e r) (hput : e.putTime = none) (he : e.TellsTime)
    (hformed : GrFormed s st) : ∀ x ∈ r.placed s, x.2.Plain := by
  have hwake : ∀ gst, ∀ o ∈ (grUpdateGst st gst).2, o.event.Plain := grUpdateGst_plain st
  have hnil : ∀ x ∈ ([] : List ((ServerId c ⊕ ClientId c) × GrEvent c)), x.2.Plain :=
    List.forall_mem_nil _
  cases hw with
  | other _ _ _ _ _ hnew => exact fun x hx => (hnew x hx).plain
  | wake _ gst others _ hplaced hothers =>
    intro x hx
    rw [hplaced] at hx
    rcases List.mem_append.mp hx with hx | hx
    · obtain ⟨o, ho, rfl⟩ := List.mem_map.mp hx
      exact hwake gst o ho
    · exact (hothers x hx).plain
  | getForward _ hcont =>
    exact Outcome.forall_placed (List.forall_mem_singleton.mpr ⟨trivial, rfl, rfl⟩)
      fun e he => (hcont e he).plain
  | putForward => cases hput
  | putDefer => cases hput
  | putOpen => cases hput
  | getServe =>
    exact Outcome.forall_placed (List.forall_mem_singleton.mpr (grSend_plain ⟨rfl, rfl, rfl⟩))
      (by rintro _ ⟨⟩)
  | getUnlocked =>
    exact Outcome.forall_placed (List.forall_mem_singleton.mpr (grSend_plain ⟨rfl, rfl, rfl⟩))
      (by rintro _ ⟨⟩)
  | @putUnlocked id putState stamp =>
    refine Outcome.forall_placed (List.forall_mem_cons.mpr ⟨grSend_plain ⟨rfl, rfl, rfl⟩, ?_⟩)
      (by rintro _ ⟨⟩)
    split
    · exact List.forall_mem_nil _
    · intro o ho
      obtain ⟨s', -, rfl⟩ := List.mem_map.mp ho
      exact ⟨trivial, rfl, rfl⟩
  | rotxRequest =>
    refine Outcome.forall_placed ?_ (by rintro _ ⟨⟩)
    split
    · exact List.forall_mem_nil _
    · exact List.forall_mem_singleton.mpr ⟨trivial, rfl, rfl⟩
  | snapshotUnlocked =>
    refine Outcome.forall_placed (fun o ho => ?_) (by rintro _ ⟨⟩)
    obtain ⟨i, key, -, rfl⟩ := List.mem_mapIdx.mp ho
    exact ⟨trivial, rfl, rfl⟩
  | getLocked | snapshotLocked | sliceLocked | receiveLocked =>
    refine Outcome.forall_placed (hwake _) ?_
    rintro _ ⟨⟩
    exact ⟨trivial, rfl, rfl⟩
  | getOpen | putLocked | snapshotRequest | sliceRequest | sliceResponse =>
    refine Outcome.forall_placed (List.forall_mem_nil _) ?_
    rintro _ ⟨⟩
    exact ⟨trivial, rfl, rfl⟩
  | getResponse | putResponse =>
    exact Outcome.forall_placed (List.forall_mem_singleton.mpr ⟨he, rfl, rfl⟩) (by rintro _ ⟨⟩)
  | sliceServe | receiveLast =>
    exact Outcome.forall_placed (List.forall_mem_singleton.mpr ⟨trivial, rfl, rfl⟩) (by rintro _ ⟨⟩)
  | receive => exact Outcome.forall_placed (List.forall_mem_nil _) (by rintro _ ⟨⟩)
  | abroad _ hget hclient => exact absurd (hformed.snapshot _ _ hget) hclient

theorem GrWork.put_tellsTime {request : GrPutRequest c} (hw : GrWork s st (.putRequest request) r) :
    ∀ x ∈ r.placed s, x.2.TellsTime := by
  cases hw with
  | putForward => exact List.forall_mem_singleton.mpr trivial
  | putDefer => exact List.forall_mem_singleton.mpr trivial
  | putOpen => exact List.forall_mem_singleton.mpr trivial
  | other he => exact he.elim
  | wake he => exact he.elim
  | sliceServe he => rcases he with he | ⟨he, -⟩ <;> cases he
  | receive he => rcases he with he | he <;> cases he
  | receiveLast he => rcases he with he | he <;> cases he
  | abroad he => rcases he with he | he <;> cases he

/-! ## 3. Clients -/

/-- What `update_times` makes of the time that a client depends on. -/
theorem grUpdateTimes_dependencyTime (st : GrClientState c) (gst dependencyTime : ℚ) :
    (grUpdateTimes st gst dependencyTime).dependencyTime =
      max st.dependencyTime dependencyTime := by
  unfold grUpdateTimes
  dsimp only
  split
  · rename_i hlt
    exact (max_eq_right hlt.le).symm
  · rename_i hle
    exact (max_eq_left (not_lt.mp hle)).symm

/-- The time of an answer, if the event is one. -/
def GrEvent.answerTime : GrEvent c → Option ℚ
  | .getResponse response => some response.updateTimestamp
  | .putResponse response => some response.updateTimestamp
  | .rotxResponse response => some response.updateTimestamp
  | _ => none

/-- A client goes on depending on what it did, and depends on its answers. -/
theorem grClientProcessEvent_bound {k : ClientId c} {t : ℚ} {d : Decision} {st : GrClientState c}
    {r : GrClientState c × List (GrOut c)} (h : grClientProcessEvent k t d st e = some r) :
    r.1.dependencyTime = e.answerTime.elim st.dependencyTime (max st.dependencyTime) := by
  obtain ⟨st', hlearn, ⟨requestTime, hr⟩, -⟩ := grClientProcessEvent_asks h
  rw [hr]
  cases hlearn with
  | get response => exact grUpdateTimes_dependencyTime st response.gst response.updateTimestamp
  | put response => exact grUpdateTimes_dependencyTime st 0 response.updateTimestamp
  | rotx response => exact grUpdateTimes_dependencyTime st response.gst response.updateTimestamp
  | tick => rfl

theorem grPutView_lawful (c : Cluster) : (grPutView c).Lawful (grProgram c) where
  requests := grRequestView_lawful c
  about {p e q} h := by
    cases e <;> cases h
    cases p <;> rfl
  refers {s e id} h := by
    cases e <;> cases h
    rfl
  held {st id o y} ho hy := by
    obtain ⟨putState, hget, rfl⟩ := Option.map_eq_some_iff.mp ho
    cases hy
    have hnonneg : ∀ (x y : ClientId c × RequestKind),
        (0 : ℤ) ≤ (Pi.single x 1 : ClientId c × RequestKind → ℤ) y := by
      intro x y
      rw [Pi.single_apply]
      split <;> decide
    have hone := le_ptrArraySum (f := fun _ (x : GrPutState c) => (Pi.single (x.client, .put) 1 :
      ClientId c × RequestKind → ℤ) (putState.client, .put)) (fun _ _ _ => hnonneg _ _) hget
    have hget' := ptrArraySum_nonneg (f := fun _ (x : GrGetState c) => (Pi.single (x.client, .get) 1 :
      ClientId c × RequestKind → ℤ) (putState.client, .put)) (a := st.getStates)
        fun _ _ _ => hnonneg _ _
    have hrotx := ptrArraySum_nonneg (f := fun _ (x : GrRotxState c) => (Pi.single (x.client, .rotx)
      1 : ClientId c × RequestKind → ℤ) (putState.client, .put)) (a := st.rotxStates)
        fun _ _ _ => hnonneg _ _
    rw [Pi.single_eq_same] at hone
    show 1 ≤ grRequestsHeld st (putState.client, .put)
    simp only [grRequestsHeld, Pi.add_apply, ptrArraySum_apply]
    omega
  grows {k t x st e r} h := by
    have hbound := grClientProcessEvent_bound h
    refine ⟨?_, fun hnone => ?_⟩
    · show st.dependencyTime ≤ r.1.dependencyTime
      rw [hbound]
      cases e.answerTime with
      | none => exact le_rfl
      | some time => exact le_max_left _ _
    · show r.1.dependencyTime = st.dependencyTime
      rw [hbound]
      cases e <;> first | rfl | cases hnone
  asks {k t x st e r o} h ho := by
    obtain ⟨st', -, -, hasks⟩ := grClientProcessEvent_asks h
    have hask := hasks _ (List.mem_map_of_mem ho)
    generalize hy : (o.placeOfClient k, o.event) = y at hask
    have hevent : o.event = y.2 := congrArg Prod.snd hy
    rw [hevent]
    cases hask with
    | put key value =>
      refine ⟨rfl, ?_⟩
      rintro _ ⟨⟩
      exact ⟨rfl, le_rfl⟩
    | _ =>
      refine ⟨rfl, ?_⟩
      rintro _ ⟨⟩

/-! ## 4. Every run -/

section Runs

variable {setup : Setup c (GrEvent c)} {Q : GrAct c → Prop} {M : GrMail c} {h : List (GrAct c)}

/-- Answers tell the times of their versions. -/
theorem gr_tellsTime (hr : Mail.Run (grProgram c) Q (grWorld setup).config.mail M h) :
    ∀ x ∈ M.events, x.2.TellsTime := by
  refine (hr.flow_all (fun _ _ _ => True) (fun _ _ _ => True) (fun _ x => x.2.TellsTime) id id id
    ?_ ?_ (fun _ => trivial) (fun _ => trivial) ?_).2.2
  · intro M h s t e r hrun hmem hserve _ he
    refine ⟨trivial, fun x hx => ?_⟩
    have hr' := grServerProcessEvent_some hserve
    have hformed : GrFormed s { M.server s with now := t, clock := c.clock s t } :=
      ((gr_formed hrun).1 s).of_eq rfl rfl rfl rfl
    cases hput : e.putTime with
    | none => exact ((grProcessEvent_work hr').plain hput he hformed x hx).1
    | some q =>
      cases e <;> cases hput
      exact (grProcessEvent_work hr').put_tellsTime x hx
  · intro M h k t d e r hrun hclient _ _
    obtain ⟨st', -, -, hasks⟩ := grClientProcessEvent_asks hclient
    refine ⟨trivial, fun x hx => ?_⟩
    cases hasks x hx <;> trivial
  · intro x hx
    rcases Setup.mem_mail hx with ⟨s, rfl, -⟩ | ⟨s, rfl⟩ | ⟨k, rfl⟩ <;> trivial

theorem gr_put_serves (hr : Mail.Run (grProgram c) Q (grWorld setup).config.mail M h) {t : ℚ}
    (hmem : (.inl s, e) ∈ M.events) (hserve : grServerProcessEvent s t (M.server s) e = some r) :
    (grPutView c).Serves s t e r := by
  have hr' := grServerProcessEvent_some hserve
  cases hput : e.putTime with
  | some q =>
    cases e <;> cases hput
    exact grProcessPutRequest_serves hr'
  | none =>
    -- no more than that is needed of the other handlers
    have hformed : GrFormed s { M.server s with now := t, clock := c.clock s t } :=
      ((gr_formed hr).1 s).of_eq rfl rfl rfl rfl
    refine .none fun x hx => ?_
    exact ((grProcessEvent_work hr').plain hput (gr_tellsTime hr _ hmem) hformed x hx).2

/-- A client depends on all that its answers tell of. -/
theorem gr_honest (hr : Mail.Run (grProgram c) Q (grWorld setup).config.mail M h) :
    (grPutView c).Honest (grProgram c) M := by
  intro k e t d r hmem hclient v hv
  have hbound : r.1.dependencyTime = _ := grClientProcessEvent_bound hclient
  show v.updateTime ≤ r.1.dependencyTime
  rw [hbound]
  have htells := gr_tellsTime hr _ hmem
  cases e with
  | getResponse response =>
    have hv : v ∈ readVersion response.key _ := hv
    rw [readVersion_time hv, ← htells]
    exact le_max_right _ _
  | putResponse response =>
    rw [List.mem_singleton.mp hv, htells]
    exact le_max_right _ _
  | rotxResponse response =>
    obtain ⟨read, hread, hv⟩ := List.mem_flatMap.mp hv
    rw [readVersion_time hv]
    exact ((gr_true hr).2 _ hmem read hread).1.trans (le_max_right _ _)
  | _ => cases hv

theorem grPutView_known (setup : Setup c (GrEvent c)) :
    (grPutView c).Known (grProgram c) (grWorld setup).config.mail where
  lawful := grPutView_lawful c
  fresh x hx := by
    rcases Setup.mem_mail hx with ⟨s, rfl, -⟩ | ⟨s, rfl⟩ | ⟨k, rfl⟩ <;> exact ⟨rfl, rfl⟩
  traced hr := gr_traced hr
  stale hr := gr_never_stale hr
  honest hr := gr_honest hr
  serves hr hmem hserve := gr_put_serves hr hmem hserve

end Runs

end CCSim
