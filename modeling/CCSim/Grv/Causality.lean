/-
# What versions depend on in `grv`

The protocol as a `PutView`.  A client depends on the greatest entry of its `gst_vector` and
`dependency_vector` (`max_gst_and_dependency_vector`), which a PUT brings along as a vector; the
server that holds the key compares the greatest entry with its clock before it asks for the lock.  An
answer names the replica that the version is from, and the entry of that replica is raised.
-/
import CCSim.Grv.Discipline
import CCSim.Grv.StateIds
import CCSim.PutView

namespace CCSim

variable {c : Cluster} {s : ServerId c} {st : GrvServerState c} {e : GrvEvent c} {r : GrvOutcome c}

/-! ## 1. The view -/

def GrvEvent.putTime : GrvEvent c → Option (PutTime c)
  | .putRequest request =>
    some ⟨request.client, request.key, maxVector request.dependencyVector⟩
  | _ => none

def GrvEvent.putLocked : GrvEvent c → Option ℕ
  | .putRequestLocked id => some id
  | _ => none

def GrvObject.writer : GrvObject c → Option (ClientId c × Key × Value)
  | .put key value _ client _ _ => some (client, key, value)
  | _ => none

/-- The versions that an answer tells of. -/
def GrvEvent.told : GrvEvent c → List (GrvVersion c)
  | .getResponse response => readVersion response.key response.read
  | .putResponse response => [response.written]
  | .rotxResponse response => response.reads.flatMap fun read => readVersion read.key read.read
  | _ => []

def grvPutView (c : Cluster) :
    PutView c (GrvEvent c) (GrvServerState c) (GrvClientState c) (GrvObject c) where
  requests := grvRequestView c
  states := grvStateView c
  request := GrvEvent.putTime
  locked := GrvEvent.putLocked
  writer := GrvObject.writer
  bound st := maxVector (grvMaxGstAndDependencyVector st)
  told := GrvEvent.told

/-! ## 2. Vectors -/

section Vectors

variable {v w : TimeVector c}

theorem maxVector_fold (v : TimeVector c) (l : List (Replica c)) (a : ℚ) :
    a ≤ l.foldl (fun m i => if m < v i then v i else m) a ∧
      (∀ i ∈ l, v i ≤ l.foldl (fun m i => if m < v i then v i else m) a) ∧
      (l.foldl (fun m i => if m < v i then v i else m) a = a ∨
        ∃ i, l.foldl (fun m i => if m < v i then v i else m) a = v i) := by
  induction l generalizing a with
  | nil => exact ⟨le_rfl, List.forall_mem_nil _, .inl rfl⟩
  | cons i l ih =>
    obtain ⟨hle, hall, hsome⟩ := ih (if a < v i then v i else a)
    rw [List.foldl_cons]
    refine ⟨?_, List.forall_mem_cons.mpr ⟨?_, hall⟩, ?_⟩
    · refine le_trans ?_ hle
      split
      · rename_i hlt
        exact hlt.le
      · exact le_rfl
    · refine le_trans ?_ hle
      split
      · exact le_rfl
      · rename_i hnot
        exact not_lt.mp hnot
    · rcases hsome with heq | ⟨j, hj⟩
      · rw [heq]
        split
        · exact .inr ⟨i, rfl⟩
        · exact .inl rfl
      · exact .inr ⟨j, hj⟩

theorem le_maxVector (v : TimeVector c) (i : Replica c) : v i ≤ maxVector v :=
  (maxVector_fold v _ _).2.1 i (List.mem_finRange i)

theorem maxVector_mono (h : ∀ i, v i ≤ w i) : maxVector v ≤ maxVector w := by
  rcases (maxVector_fold v (List.finRange c.numReplicas) (v c.replica0)).2.2 with heq | ⟨i, hi⟩
  · rw [maxVector, heq]
    exact (h _).trans (le_maxVector w _)
  · rw [maxVector, hi]
    exact (h i).trans (le_maxVector w i)

theorem le_setMaxVector (v w : TimeVector c) (i : Replica c) :
    v i ≤ setMaxVector v w i ∧ w i ≤ setMaxVector v w i := by
  unfold setMaxVector
  split
  · rename_i hlt
    exact ⟨hlt.le, le_rfl⟩
  · rename_i hnot
    exact ⟨le_rfl, not_lt.mp hnot⟩

/-- A time in the dependency vector of a client is in its bound. -/
theorem grv_le_bound {st : GrvClientState c} {i : Replica c} {u : ℚ}
    (h : u ≤ st.dependencyVector i) : u ≤ maxVector (grvMaxGstAndDependencyVector st) := by
  refine le_trans (h.trans ?_) (le_maxVector _ i)
  unfold grvMaxGstAndDependencyVector
  split
  · rename_i hlt
    exact hlt.le
  · exact le_rfl

end Vectors

/-! ## 3. Servers -/

/-- The time of an answer is that of its version, and the vector of an answer to a transaction
covers what was read. -/
def GrvEvent.TellsTime : GrvEvent c → Prop
  | .getResponse response => response.updateTimestamp = updateTimeOf response.read
  | .putResponse response => response.written.updateTime = response.updateTime
  | .sliceResponse slice => ∀ v ∈ slice.values, v.updateTime = updateTimeOf v.read
  | .rotxResponse response =>
    ∀ v ∈ response.reads, updateTimeOf v.read ≤ response.dependencyVector v.sourceReplica
  | _ => True

/-- And so does the vector of a transaction under way. -/
def GrvCovers (st : GrvServerState c) : Prop :=
  ∀ id rotx, ptrArrayGet st.rotxStates id = some rotx →
    ∀ v ∈ rotx.reads, updateTimeOf v.read ≤ rotx.dependencyVector v.sourceReplica

/-- An event that no PUT begins with, and that tells the time of its version. -/
def GrvEvent.Plain (e : GrvEvent c) : Prop :=
  e.TellsTime ∧ e.putTime = none ∧ e.putLocked = none

theorem GrvEvent.Other.plain (h : e.Other) : e.Plain := by
  cases e <;> first | exact h.elim | exact ⟨trivial, rfl, rfl⟩

theorem grvSend_plain {lpid : Lpid c} (h : e.Plain) : (grvSend lpid e).event.Plain := by
  rwa [grvSend_event]

/-- One more value raises the entry of its replica, and lowers none. -/
theorem grvReceiveValue_covers {rotx : GrvRotxState c} {v : GrvSliceValue c}
    (h : ∀ v ∈ rotx.reads, updateTimeOf v.read ≤ rotx.dependencyVector v.sourceReplica)
    (hv : v.updateTime = updateTimeOf v.read) :
    ∀ w ∈ (grvReceiveValue rotx v).reads,
      updateTimeOf w.read ≤ (grvReceiveValue rotx v).dependencyVector w.sourceReplica := by
  have hgrow : ∀ i, rotx.dependencyVector i ≤ (grvReceiveValue rotx v).dependencyVector i := by
    intro i
    unfold grvReceiveValue
    dsimp only
    split
    · rename_i hlt
      by_cases hi : i = v.sourceReplica
      · rw [hi, Function.update_self]
        exact hlt.le
      · rw [Function.update_of_ne hi]
    · exact le_rfl
  refine List.forall_mem_cons.mpr ⟨?_, fun w hw => (h w hw).trans (hgrow _)⟩
  rw [← hv]
  unfold grvReceiveValue
  dsimp only
  split
  · rw [Function.update_self]
  · rename_i hnot
    exact not_lt.mp hnot

theorem grvReceiveSlice_covers {rotx : GrvRotxState c} {slice : GrvSliceResponse c}
    (h : ∀ v ∈ rotx.reads, updateTimeOf v.read ≤ rotx.dependencyVector v.sourceReplica)
    (hslice : ∀ v ∈ slice.values, v.updateTime = updateTimeOf v.read) :
    ∀ w ∈ (grvReceiveSlice rotx slice).reads,
      updateTimeOf w.read ≤ (grvReceiveSlice rotx slice).dependencyVector w.sourceReplica := by
  suffices hfold : ∀ (values : List (GrvSliceValue c)) (rotx : GrvRotxState c),
      (∀ v ∈ values, v.updateTime = updateTimeOf v.read) →
      (∀ v ∈ rotx.reads, updateTimeOf v.read ≤ rotx.dependencyVector v.sourceReplica) →
        ∀ w ∈ (values.foldl grvReceiveValue rotx).reads, updateTimeOf w.read ≤
          (values.foldl grvReceiveValue rotx).dependencyVector w.sourceReplica from
    hfold slice.values rotx hslice h
  intro values
  induction values with
  | nil => exact fun _ _ h => h
  | cons v values ih =>
    intro rotx hvalues h
    obtain ⟨hv, hrest⟩ := List.forall_mem_cons.mp hvalues
    exact ih _ hrest (grvReceiveValue_covers h hv)

/-- **What a handler leaves behind**, if it handles no PUT that is not opened. -/
theorem GrvWork.plain (hw : GrvWork s st e r) (hput : e.putTime = none) (hst : GrvCovers st)
    (he : e.TellsTime) : GrvCovers r.state ∧ ∀ x ∈ r.placed s, x.2.Plain := by
  cases hw with
  | other _ _ hrotx hnew =>
    refine ⟨fun id rotx hget => hst id rotx (hrotx ▸ hget), fun x hx => (hnew x hx).plain⟩
  | getForward _ hcont =>
    exact ⟨hst, Outcome.forall_placed (List.forall_mem_singleton.mpr ⟨trivial, rfl, rfl⟩)
      fun e he => (hcont e he).plain⟩
  | putForward => cases hput
  | putDefer => cases hput
  | putOpen => cases hput
  | getServe =>
    exact ⟨hst, Outcome.forall_placed
      (List.forall_mem_singleton.mpr (grvSend_plain ⟨rfl, rfl, rfl⟩)) (by rintro _ ⟨⟩)⟩
  | putUnlocked =>
    refine ⟨hst, Outcome.forall_placed
      (List.forall_mem_cons.mpr ⟨grvSend_plain ⟨rfl, rfl, rfl⟩, ?_⟩) (by rintro _ ⟨⟩)⟩
    split
    · exact List.forall_mem_nil _
    · intro o ho
      obtain ⟨s', -, rfl⟩ := List.mem_map.mp ho
      exact ⟨trivial, rfl, rfl⟩
  | rotxOpen =>
    refine ⟨forall_ptrArrayPut hst (List.forall_mem_nil _),
      Outcome.forall_placed (fun o ho => ?_) (by rintro _ ⟨⟩)⟩
    obtain ⟨p, -, hp⟩ := List.mem_filterMap.mp ho
    split at hp <;> cases hp
    exact ⟨trivial, rfl, rfl⟩
  | getResponse | putResponse =>
    exact ⟨hst, Outcome.forall_placed (List.forall_mem_singleton.mpr ⟨he, rfl, rfl⟩)
      (by rintro _ ⟨⟩)⟩
  | sliceDefer =>
    exact ⟨hst, Outcome.forall_placed (List.forall_mem_singleton.mpr ⟨trivial, rfl, rfl⟩)
      (by rintro _ ⟨⟩)⟩
  | sliceServe =>
    refine ⟨hst, Outcome.forall_placed (List.forall_mem_singleton.mpr ⟨fun v hv => ?_, rfl, rfl⟩)
      (by rintro _ ⟨⟩)⟩
    obtain ⟨x, -, rfl⟩ := List.mem_map.mp hv
    rfl
  | getLock | getLocked | putLocked | rotxLock | rotxLocked | sliceLock | sliceLocked =>
    refine ⟨hst, Outcome.forall_placed (List.forall_mem_nil _) ?_⟩
    rintro _ ⟨⟩
    exact ⟨trivial, rfl, rfl⟩
  | receive hget =>
    refine ⟨forall_ptrArraySet hst hget ?_,
      Outcome.forall_placed (List.forall_mem_nil _) (by rintro _ ⟨⟩)⟩
    rintro _ ⟨⟩
    exact grvReceiveSlice_covers (hst _ _ hget) he
  | receiveLast hget =>
    refine ⟨forall_ptrArraySet hst hget (by rintro _ ⟨⟩), Outcome.forall_placed
      (List.forall_mem_singleton.mpr ⟨?_, rfl, rfl⟩) (by rintro _ ⟨⟩)⟩
    exact grvReceiveSlice_covers (hst _ _ hget) he

/-- A PUT is forwarded, put off, or opened. -/
theorem grvProcessPutRequest_serves {t : ℚ} {request : GrvPutRequest c}
    (h : grvProcessPutRequest s { st with now := t, clock := c.clock s t } request = some r) :
    (grvPutView c).Serves s t (.putRequest request) r ∧ r.state.rotxStates = st.rotxStates ∧
      ∀ x ∈ r.placed s, x.2.TellsTime := by
  unfold grvProcessPutRequest at h
  dsimp only at h
  split at h
  · rename_i hkey
    split at h <;> cases h
    refine ⟨⟨List.forall_mem_singleton.mpr ⟨rfl, ?_⟩, by rintro _ ⟨⟩, by rintro _ ⟨⟩⟩, rfl,
      List.forall_mem_singleton.mpr trivial⟩
    rintro _ ⟨⟩
    exact ⟨rfl, .forward hkey⟩
  · rename_i hkey
    split at h <;> cases h
    · rename_i hlt
      refine ⟨⟨List.forall_mem_singleton.mpr ⟨rfl, ?_⟩, by rintro _ ⟨⟩, by rintro _ ⟨⟩⟩, rfl,
        List.forall_mem_singleton.mpr trivial⟩
      rintro _ ⟨⟩
      exact ⟨rfl, .defer (not_not.mp hkey) hlt⟩
    · rename_i hle
      refine ⟨⟨List.forall_mem_nil _, ?_, ?_⟩, rfl, List.forall_mem_singleton.mpr trivial⟩
      · rintro _ ⟨⟩
        rfl
      · rintro _ ⟨⟩ _ ⟨⟩
        refine ⟨⟨_, _, rfl⟩, _, rfl, not_lt.mp hle, fun o ho y hy => ?_⟩
        -- the slot that was free is that of the request
        obtain ⟨putState, hget, rfl⟩ := Option.map_eq_some_iff.mp ho
        rw [ptrArrayPut_get, if_pos rfl] at hget
        cases hget
        cases hy
        rfl

/-! ## 4. Clients -/

/-- A request does not change what the client depends on. -/
theorem grvClientDecide_times {k : ClientId c} {t : ℚ} {st : GrvClientState c} {d : Decision}
    {r : GrvClientState c × List (GrvOut c)} (h : grvClientDecide k t st d = some r) :
    r.1.gstVector = st.gstVector ∧ r.1.dependencyVector = st.dependencyVector := by
  have hsend : ∀ {request : GrvClientState c → GrvEvent c},
      grvClientSend k t st request = some r →
        r.1.gstVector = st.gstVector ∧ r.1.dependencyVector = st.dependencyVector := by
    intro request h
    unfold grvClientSend grvClientBeginRequest at h
    split at h <;> cases h
    exact ⟨rfl, rfl⟩
  cases d with
  | nothing =>
    cases h
    exact ⟨rfl, rfl⟩
  | tick delay =>
    simp only [grvClientDecide] at h
    split at h <;> cases h
    exact ⟨rfl, rfl⟩
  | get key => exact hsend h
  | put key value => exact hsend h
  | rotx keys => exact hsend h

/-- What a client learns from an answer: the vectors do not go down, and cover what is told. -/
theorem grvClientReceive_times {st st' : GrvClientState c} (h : grvClientReceive st e = some st') :
    (∀ i, st.gstVector i ≤ st'.gstVector i ∧ st.dependencyVector i ≤ st'.dependencyVector i) ∧
      (e.responseKind = none → st' = st) ∧ (e.TellsTime → ∀ v ∈ e.told, ∃ i,
        v.updateTime ≤ st'.dependencyVector i) := by
  have hfinish : ∀ {st st' : GrvClientState c}, grvClientFinishRequest st = some st' →
      st' = { st with requestTime := none } := by
    intro st st' h
    unfold grvClientFinishRequest at h
    split at h <;> cases h
    rfl
  have hraise : ∀ (v : TimeVector c) (u : ℚ) (j : Replica c),
      (∀ i, v i ≤ (if v j < u then Function.update v j u else v) i) ∧
        u ≤ (if v j < u then Function.update v j u else v) j := by
    intro v u j
    split
    · rename_i hlt
      refine ⟨fun i => ?_, by rw [Function.update_self]⟩
      by_cases hi : i = j
      · rw [hi, Function.update_self]
        exact hlt.le
      · rw [Function.update_of_ne hi]
    · rename_i hnot
      exact ⟨fun _ => le_rfl, not_lt.mp hnot⟩
  cases e with
  | getResponse response =>
    obtain ⟨st₁, hst, rfl⟩ := Option.map_eq_some_iff.mp h
    obtain rfl := hfinish hst
    obtain ⟨hmono, hself⟩ := hraise st.dependencyVector response.updateTimestamp
      response.sourceReplica
    refine ⟨fun i => ⟨(le_setMaxVector _ _ i).1, hmono i⟩, by rintro ⟨⟩, fun htells v hv =>
      ⟨response.sourceReplica, ?_⟩⟩
    have hv : v ∈ readVersion response.key _ := hv
    rw [readVersion_time hv, ← htells]
    exact hself
  | putResponse response =>
    obtain ⟨st₁, hst, rfl⟩ := Option.map_eq_some_iff.mp h
    obtain rfl := hfinish hst
    obtain ⟨hmono, hself⟩ := hraise st.dependencyVector response.updateTime response.sourceReplica
    refine ⟨fun i => ⟨le_rfl, hmono i⟩, by rintro ⟨⟩, fun htells v hv =>
      ⟨response.sourceReplica, ?_⟩⟩
    rw [List.mem_singleton.mp hv, htells]
    exact hself
  | rotxResponse response =>
    obtain ⟨st₁, hst, rfl⟩ := Option.map_eq_some_iff.mp h
    obtain rfl := hfinish hst
    refine ⟨fun i => ⟨le_rfl, (le_setMaxVector _ _ i).1⟩, by rintro ⟨⟩, fun htells v hv => ?_⟩
    obtain ⟨read, hread, hv⟩ := List.mem_flatMap.mp hv
    refine ⟨read.sourceReplica, ?_⟩
    rw [readVersion_time hv]
    exact (htells read hread).trans (le_setMaxVector _ _ _).2
  | clientTick =>
    cases h
    exact ⟨fun _ => ⟨le_rfl, le_rfl⟩, fun _ => rfl, fun _ _ hv => absurd hv List.not_mem_nil⟩
  | _ => cases h

/-- A client does not depend on less, and depends on the same after a tick. -/
theorem grvClientProcessEvent_bound {k : ClientId c} {t : ℚ} {d : Decision} {st : GrvClientState c}
    {r : GrvClientState c × List (GrvOut c)} (h : grvClientProcessEvent k t d st e = some r) :
    (grvPutView c).bound st ≤ (grvPutView c).bound r.1 ∧
      (e.responseKind = none → (grvPutView c).bound r.1 = (grvPutView c).bound st) ∧
        (e.TellsTime → ∀ v ∈ e.told, v.updateTime ≤ (grvPutView c).bound r.1) := by
  unfold grvClientProcessEvent at h
  split at h
  · cases h
  · rename_i st' hst
    obtain ⟨hgst, hdep⟩ := grvClientDecide_times h
    obtain ⟨hmono, htick, htold⟩ := grvClientReceive_times hst
    have hsame : (grvPutView c).bound r.1 = (grvPutView c).bound st' := by
      show maxVector _ = maxVector _
      unfold grvMaxGstAndDependencyVector
      rw [hgst, hdep]
    rw [hsame]
    refine ⟨maxVector_mono fun i => ?_, fun hnone => by rw [htick hnone], fun htells v hv => ?_⟩
    · unfold grvMaxGstAndDependencyVector
      obtain ⟨hg, hd⟩ := hmono i
      split <;> split <;> linarith
    · obtain ⟨i, hi⟩ := htold htells v hv
      exact grv_le_bound hi

theorem grvPutView_lawful (c : Cluster) : (grvPutView c).Lawful (grvProgram c) where
  requests := grvRequestView_lawful c
  about {p e q} h := by
    cases e <;> cases h
    cases p <;> rfl
  refers {s e id} h := by
    cases e <;> cases h
    rfl
  held {st id o y} ho hy := by
    obtain ⟨putState, hget, rfl⟩ := Option.map_eq_some_iff.mp ho
    cases hy
    have hnonneg : ∀ (x y : ClientId c × RequestKind),
        (0 : ℤ) ≤ (Pi.single x 1 : ClientId c × RequestKind → ℤ) y := by
      intro x y
      rw [Pi.single_apply]
      split <;> decide
    have hone := le_ptrArraySum (f := fun _ (x : GrvPutState c) => (Pi.single (x.client, .put) 1 :
      ClientId c × RequestKind → ℤ) (putState.client, .put)) (fun _ _ _ => hnonneg _ _) hget
    have hrotx := ptrArraySum_nonneg (f := fun _ (x : GrvRotxState c) => (Pi.single (x.client, .rotx)
      1 : ClientId c × RequestKind → ℤ) (putState.client, .put)) (a := st.rotxStates)
        fun _ _ _ => hnonneg _ _
    rw [Pi.single_eq_same] at hone
    show 1 ≤ grvRequestsHeld st (putState.client, .put)
    simp only [grvRequestsHeld, Pi.add_apply, ptrArraySum_apply]
    omega
  grows {k t x st e r} h :=
    ⟨(grvClientProcessEvent_bound h).1, (grvClientProcessEvent_bound h).2.1⟩
  asks {k t x st e r o} h ho := by
    obtain ⟨st', -, -, hsends⟩ := grvClientProcessEvent_some h
    generalize r = r' at hsends ho
    cases hsends with
    | nothing => cases ho
    | tick delay hdelay =>
      rw [List.mem_singleton.mp ho]
      exact ⟨rfl, by rintro _ ⟨⟩⟩
    | @request r e' hidle hbusy hne hask =>
      rw [List.mem_singleton.mp ho]
      generalize hy : ((.inl k.server : ServerId c ⊕ ClientId c), e') = y at hask
      have hevent : e' = y.2 := congrArg Prod.snd hy
      show e'.putLocked = none ∧ ∀ q ∈ e'.putTime, q.client = k ∧ (grvPutView c).bound r ≤ q.time
      rw [hevent]
      cases hask with
      | put key value =>
        refine ⟨rfl, ?_⟩
        rintro _ ⟨⟩
        exact ⟨rfl, le_rfl⟩
      | _ =>
        refine ⟨rfl, ?_⟩
        rintro _ ⟨⟩

/-! ## 5. Every run -/

section Runs

variable {setup : Setup c (GrvEvent c)} {Q : GrvAct c → Prop} {M : GrvMail c} {h : List (GrvAct c)}

/-- Answers tell the times of their versions. -/
theorem grv_tellsTime (hr : Mail.Run (grvProgram c) Q (grvWorld setup).config.mail M h) :
    (∀ s, GrvCovers (M.server s)) ∧ ∀ x ∈ M.events, x.2.TellsTime := by
  refine And.imp_right And.right (hr.flow (fun _ => GrvCovers) (fun _ _ => True)
    (fun x => x.2.TellsTime) ?_ ?_ ?_ (fun _ => trivial) ?_)
  · intro s t st e r hserve hst he
    have hr' := grvServerProcessEvent_some hserve
    cases hput : e.putTime with
    | none =>
      obtain ⟨hcovers, hplain⟩ := (grvProcessEvent_work hr').plain hput hst he
      exact ⟨hcovers, fun x hx => (hplain x hx).1⟩
    | some q =>
      cases e <;> cases hput
      obtain ⟨-, hrotx, htells⟩ := grvProcessPutRequest_serves hr'
      exact ⟨fun id rotx hget => hst id rotx (hrotx ▸ hget), htells⟩
  · intro k t d st e r hclient _ _
    obtain ⟨st', -, -, hsends⟩ := grvClientProcessEvent_some hclient
    refine ⟨trivial, fun x hx => ?_⟩
    cases hsends with
    | nothing => cases hx
    | tick delay hdelay =>
      rw [List.mem_singleton.mp hx]
      trivial
    | @request r e' hidle hbusy hne hask =>
      rw [List.mem_singleton.mp hx]
      cases hask <;> trivial
  · rintro s id _ ⟨⟩
  · intro x hx
    rcases Setup.mem_mail hx with ⟨s, rfl, -⟩ | ⟨s, rfl⟩ | ⟨k, rfl⟩ <;> trivial

theorem grv_put_serves (hr : Mail.Run (grvProgram c) Q (grvWorld setup).config.mail M h) {t : ℚ}
    (hmem : (.inl s, e) ∈ M.events) (hserve : grvServerProcessEvent s t (M.server s) e = some r) :
    (grvPutView c).Serves s t e r := by
  have hr' := grvServerProcessEvent_some hserve
  obtain ⟨hcovers, htells⟩ := grv_tellsTime hr
  cases hput : e.putTime with
  | some q =>
    cases e <;> cases hput
    exact (grvProcessPutRequest_serves hr').1
  | none =>
    exact .none fun x hx =>
      (((grvProcessEvent_work hr').plain hput (hcovers s) (htells _ hmem)).2 x hx).2

theorem grvPutView_known (setup : Setup c (GrvEvent c)) :
    (grvPutView c).Known (grvProgram c) (grvWorld setup).config.mail where
  lawful := grvPutView_lawful c
  fresh x hx := by
    rcases Setup.mem_mail hx with ⟨s, rfl, -⟩ | ⟨s, rfl⟩ | ⟨k, rfl⟩ <;> exact ⟨rfl, rfl⟩
  traced hr := grv_traced hr
  stale hr := grv_never_stale hr
  honest hr k e t d r hmem hclient :=
    (grvClientProcessEvent_bound hclient).2.2 ((grv_tellsTime hr).2 _ hmem)
  serves hr hmem hserve := grv_put_serves hr hmem hserve

end Runs

end CCSim
