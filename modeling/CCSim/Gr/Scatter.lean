/-
# How a transaction is scattered and gathered (`gr`)

A transaction is asked for, waits for the stable time if it has to, asks its own server for a
snapshot, and the snapshot asks the owner of every key for a slice.  All of this is under way at the
same time for many transactions, whose slots are taken again as soon as they are free.  What is under
way for one of them is a multiset of pieces, one for every event in flight (`grPieces`); every handler
takes a piece and puts others in its place (`GrTxStep`).  So the account of a client says where its
transaction is (`GrPending`), and that of a slot which slices have been read and which have not
(`GrPhase`): together they are the keys of the transaction, each in its place, and they are all read
at the same time.
-/
import CCSim.Gr.Answers
import CCSim.Lib.Gather

namespace CCSim

variable {c : Cluster}

/-! ## 1. What is under way -/

/-- What an event does for a transaction: it asks for it, or for its snapshot, it will lock the
snapshot or scatter it, or it carries a slice. -/
inductive GrPiece (c : Cluster)
  | asked (s : ServerId c) (request : GrGetRotxRequest c)
  | ready (request : GrGetSnapshotRequest c)
  | lock
  | scatter
  | slice (keyId : ℕ) (key : Key) (time : ℚ)

/-- What it does it for: the transaction of a client, a slot of `rotx_states`, or a slot of
`snapshot_states`. -/
inductive GrTx (c : Cluster)
  | client (k : ClientId c)
  | rotx (s : ServerId c) (id : ℕ)
  | snapshot (s : ServerId c) (id : ℕ)
  deriving DecidableEq

def GrTx.one (tx : GrTx c) (pieces : Multiset (GrPiece c)) : GrTx c → Multiset (GrPiece c) :=
  Pi.single tx pieces

@[simp]
theorem GrTx.one_self (tx : GrTx c) (pieces : Multiset (GrPiece c)) :
    tx.one pieces tx = pieces := by
  simp [GrTx.one]

@[simp]
theorem GrTx.one_of_ne {tx tx' : GrTx c} (h : tx' ≠ tx) (pieces : Multiset (GrPiece c)) :
    tx.one pieces tx' = 0 := by
  simp [GrTx.one, h]

theorem GrTx.mem_one {tx tx' : GrTx c} {pieces : Multiset (GrPiece c)} {p : GrPiece c} :
    p ∈ tx.one pieces tx' ↔ tx' = tx ∧ p ∈ pieces := by
  by_cases h : tx' = tx
  · subst h
    simp
  · simp [h]

def GrSliceRequest.piece (request : GrSliceRequest c) : GrPiece c :=
  .slice request.keyId request.key request.snapshotTime

def GrSliceResponse.piece (slice : GrSliceResponse c) : GrPiece c :=
  .slice slice.keyId slice.key slice.snapshotTime

def grPieces : (ServerId c ⊕ ClientId c) × GrEvent c → GrTx c → Multiset (GrPiece c)
  | (.inl s, .rotxRequest request) => (GrTx.client request.client).one {.asked s request}
  | (.inl s, .getSnapshotRequest request) => (GrTx.rotx s request.requestId).one {.ready request}
  | (.inl s, .getSnapshotRequestLocked id) => (GrTx.snapshot s id).one {.lock}
  | (.inl s, .getSnapshotRequestUnlocked id) => (GrTx.snapshot s id).one {.scatter}
  | (_, .sliceRequest request) =>
    (GrTx.snapshot request.fromLpid request.snapshotId).one {request.piece}
  | (_, .sliceRequestLocked request) =>
    (GrTx.snapshot request.fromLpid request.snapshotId).one {request.piece}
  | (_, .sliceRequestUnlocked request) =>
    (GrTx.snapshot request.fromLpid request.snapshotId).one {request.piece}
  | (.inl s, .sliceResponse slice) => (GrTx.snapshot s slice.snapshotId).one {slice.piece}
  | (.inl s, .sliceResponseLocked slice) => (GrTx.snapshot s slice.snapshotId).one {slice.piece}
  | (.inl s, .sliceResponseUnlocked slice) => (GrTx.snapshot s slice.snapshotId).one {slice.piece}
  | _ => 0

theorem grPieces_other {x : (ServerId c ⊕ ClientId c) × GrEvent c} (h : x.2.Other) :
    grPieces x = 0 := by
  obtain ⟨p, e⟩ := x
  cases e <;> first | exact h.elim | (cases p <;> rfl)

theorem sum_grPieces_eq_zero {l : List ((ServerId c ⊕ ClientId c) × GrEvent c)}
    (h : ∀ x ∈ l, grPieces x = 0) : (l.map grPieces).sum = 0 := by
  refine List.sum_eq_zero fun y hy => ?_
  obtain ⟨x, hx, rfl⟩ := List.mem_map.mp hy
  exact h x hx

/-- The transactions that an update of the stable time wakes up. -/
def grWoken (s : ServerId c) (st : GrServerState c) (gst : ℚ) : GrTx c → Multiset (GrPiece c) :=
  ((grUpdateGst st gst).2.map fun o => grPieces (o.place s, o.event)).sum

theorem grUpdateGst_self (st : GrServerState c) : grUpdateGst st st.gst = (st, []) := by
  rw [grUpdateGst, if_neg (lt_irrefl _)]

theorem grWoken_self (s : ServerId c) (st : GrServerState c) : grWoken s st st.gst = 0 := by
  rw [grWoken, grUpdateGst_self]
  rfl

/-! ## 2. What a history says of transactions -/

/-- The transactions that a client asks for in a handler call. -/
def grRotxAsks (k : ClientId c) : GrAct c → List (GrGetRotxRequest c)
  | .client k' _ _ _ r => if k' = k then r.2.filterMap fun
      | .toServer _ (.rotxRequest request) => some request
      | _ => none
    else []
  | .server _ _ _ _ _ => []

/-- The answers to transactions among what a server sends to a client. -/
def grRotxAnswersTo (k : ClientId c) (outs : List (GrOut c)) : List (GrGetRotxResponse c) :=
  outs.filterMap fun
    | .toClient k' (.rotxResponse response) => if k' = k then some response else none
    | _ => none

/-- The answers to transactions that a client is sent in a handler call. -/
def grRotxAnswers (k : ClientId c) : GrAct c → List (GrGetRotxResponse c)
  | .server _ _ _ _ r => grRotxAnswersTo k r.outs
  | .client _ _ _ _ _ => []

/-- The transaction that a client has asked for and was not answered yet. -/
def grAsked (k : ClientId c) : List (GrAct c) → Option (GrGetRotxRequest c) :=
  pending (fun a => (grRotxAsks k a).head?) fun a => !(grRotxAnswers k a).isEmpty

/-- The slot of the snapshot that an event starts. -/
def grSnapshotTaken (st : GrServerState c) : GrEvent c → Option ℕ
  | .getSnapshotRequest _ => some (ptrArrayFree st.snapshotStates)
  | _ => none

/-- The slice that an event brings; a slice that waits for the lock comes again. -/
def grSliceTaken (r : GrOutcome c) : GrEvent c → Option (GrSliceResponse c)
  | .sliceResponse slice => if r.cont.event?.isNone then some slice else none
  | .sliceResponseUnlocked slice => some slice
  | _ => none

/-- The slices that the snapshot in a slot has received since it was started, the latest first. -/
def grGathered (s : ServerId c) (id : ℕ) : List (GrAct c) → List (GrSliceResponse c) :=
  gathered
    (fun
      | .server s' _ e st _ => decide (s' = s ∧ grSnapshotTaken st e = some id)
      | .client _ _ _ _ _ => false)
    fun
      | .server s' _ e _ r =>
        if s' = s then (grSliceTaken r e).filter fun slice => decide (slice.snapshotId = id) else none
      | .client _ _ _ _ _ => none

/-- Nothing but an answer to a transaction is one. -/
theorem grRotxAnswersTo_eq_nil {k : ClientId c} {outs : List (GrOut c)}
    (h : ∀ o ∈ outs, ∀ response, o.event ≠ .rotxResponse response) :
    grRotxAnswersTo k outs = [] := by
  refine List.filterMap_eq_nil_iff.mpr fun o ho => ?_
  split
  · exact absurd rfl (h _ ho _)
  · rfl

theorem GrEvent.Other.not_answer {e : GrEvent c} (h : e.Other) (response : GrGetRotxResponse c) :
    e ≠ .rotxResponse response := by
  rintro rfl
  exact h

theorem GrEvent.Other.snapshotTaken {e : GrEvent c} (h : e.Other) (st : GrServerState c) :
    grSnapshotTaken st e = none := by
  cases e <;> first | exact h.elim | rfl

theorem GrEvent.Other.sliceTaken {e : GrEvent c} (h : e.Other) (r : GrOutcome c) :
    grSliceTaken r e = none := by
  cases e <;> first | exact h.elim | rfl

theorem grUpdateGst_not_answer (st : GrServerState c) (gst : ℚ) :
    ∀ o ∈ (grUpdateGst st gst).2, ∀ response, o.event ≠ .rotxResponse response := by
  intro o ho response
  obtain ⟨id, rotx, -, rfl⟩ := grUpdateGst_out ho
  rintro ⟨⟩

/-! ## 3. One look at every handler -/

/-- What a handler call does for transactions: it passes on what it gets and may wake some up, it
takes a slot for one, or for a snapshot, it locks a snapshot or scatters it, or it receives a slice,
which may be the last one. -/
inductive GrTxStep (s : ServerId c) (st : GrServerState c) (e : GrEvent c) (r : GrOutcome c) : Prop
  | pass (gst : ℚ)
      (hpieces : ((r.placed s).map grPieces).sum = grPieces (.inl s, e) + grWoken s st gst)
      (hrotx : r.state.rotxStates = (grUpdateGst st gst).1.rotxStates)
      (hsnapshot : r.state.snapshotStates = st.snapshotStates)
      (hanswers : ∀ k, grRotxAnswersTo k r.outs = [])
      (htaken : grSnapshotTaken st e = none) (hslice : grSliceTaken r e = none)
  | ask (request : GrGetRotxRequest c) (he : e = .rotxRequest request)
      (hpieces : ((r.placed s).map grPieces).sum = if request.dependencyTime ≤ st.gst then
          (GrTx.rotx s (ptrArrayFree st.rotxStates)).one
            {.ready (request.state s (ptrArrayFree st.rotxStates) st.gst).snapshotRequest}
        else 0)
      (hrotx : r.state.rotxStates =
        ptrArrayPut (request.state s (ptrArrayFree st.rotxStates) st.gst) st.rotxStates)
      (hsnapshot : r.state.snapshotStates = st.snapshotStates)
      (hanswers : ∀ k, grRotxAnswersTo k r.outs = [])
  | take (request : GrGetSnapshotRequest c) (he : e = .getSnapshotRequest request)
      (hpieces : ((r.placed s).map grPieces).sum =
        (GrTx.snapshot s (ptrArrayFree st.snapshotStates)).one {.lock})
      (hrotx : r.state.rotxStates = st.rotxStates)
      (hsnapshot : r.state.snapshotStates = ptrArrayPut request.state st.snapshotStates)
      (hanswers : ∀ k, grRotxAnswersTo k r.outs = [])
  | lock (id : ℕ) (snapshot : GrSnapshotState c) (he : e = .getSnapshotRequestLocked id)
      (hget : ptrArrayGet st.snapshotStates id = some snapshot)
      (hpieces : ((r.placed s).map grPieces).sum =
        (GrTx.snapshot s id).one {.scatter} + grWoken s st snapshot.gst)
      (hrotx : r.state.rotxStates = (grUpdateGst st snapshot.gst).1.rotxStates)
      (hsnapshot : r.state.snapshotStates = ptrArraySet st.snapshotStates id
        (some { snapshot with gst := 0, time := max st.gst snapshot.gst }))
      (hanswers : ∀ k, grRotxAnswersTo k r.outs = [])
  | scatter (id : ℕ) (snapshot : GrSnapshotState c) (he : e = .getSnapshotRequestUnlocked id)
      (hget : ptrArrayGet st.snapshotStates id = some snapshot)
      (hpieces : ((r.placed s).map grPieces).sum = (GrTx.snapshot s id).one
        ((snapshot.keys.mapIdx fun i key => .slice i key snapshot.time : List (GrPiece c)) :
          Multiset (GrPiece c)))
      (hrotx : r.state.rotxStates = st.rotxStates)
      (hsnapshot : r.state.snapshotStates = st.snapshotStates)
      (hanswers : ∀ k, grRotxAnswersTo k r.outs = [])
  | receive (slice : GrSliceResponse c) (snapshot : GrSnapshotState c)
      (he : grSliceTaken r e = some slice)
      (hget : ptrArrayGet st.snapshotStates slice.snapshotId = some snapshot)
      (hmore : snapshot.receivedValues + 1 ≠ snapshot.keys.length)
      (hpieces : ((r.placed s).map grPieces).sum = 0)
      (hrotx : r.state.rotxStates = st.rotxStates)
      (hsnapshot : r.state.snapshotStates = ptrArraySet st.snapshotStates slice.snapshotId
        (some (grReceiveSlice snapshot slice)))
      (hanswers : ∀ k, grRotxAnswersTo k r.outs = [])
  | answer (slice : GrSliceResponse c) (snapshot : GrSnapshotState c) (rotx : GrRotxState c)
      (he : grSliceTaken r e = some slice)
      (hget : ptrArrayGet st.snapshotStates slice.snapshotId = some snapshot)
      (hlast : snapshot.receivedValues + 1 = snapshot.keys.length)
      (hfor : ptrArrayGet st.rotxStates snapshot.requestId = some rotx)
      (hpieces : ((r.placed s).map grPieces).sum = 0)
      (hrotx : r.state.rotxStates = ptrArraySet st.rotxStates snapshot.requestId none)
      (hsnapshot : r.state.snapshotStates = ptrArraySet st.snapshotStates slice.snapshotId none)
      (houts : r.outs = [.toClient rotx.client (.rotxResponse (grRotxAnswer rotx
        (grSnapshotAnswer (grReceiveSlice snapshot slice))))])

theorem grSend_pieces {s : ServerId c} {lpid : Lpid c} {e : GrEvent c}
    (h : ∀ p, grPieces (p, e) = 0) :
    grPieces ((grSend lpid e).place s, (grSend lpid e).event) = 0 := by
  cases lpid <;> exact h _

theorem Pi.single_list_sum {ι B : Type} [DecidableEq ι] (i : ι) (l : List B) :
    (l.map fun x => (Pi.single i {x} : ι → Multiset B)).sum = Pi.single i (l : Multiset B) := by
  induction l with
  | nil => simp
  | cons x l ih =>
    rw [List.map_cons, List.sum_cons, ih, ← Pi.single_add, Multiset.singleton_add,
      Multiset.cons_coe]

/-- The slices that a snapshot is scattered into. -/
theorem sum_grSliceRequests_pieces (s : ServerId c) (id : ℕ) (snapshot : GrSnapshotState c) :
    ((grSliceRequests s id snapshot).map fun o => grPieces (o.place s, o.event)).sum =
      (GrTx.snapshot s id).one
        ((snapshot.keys.mapIdx fun i key => .slice i key snapshot.time : List (GrPiece c)) :
          Multiset (GrPiece c)) := by
  rw [GrTx.one, ← Pi.single_list_sum, grSliceRequests, List.mapIdx_eq_zipIdx_map,
    List.mapIdx_eq_zipIdx_map, List.map_map, List.map_map]
  rfl

/-- **One look at every handler.** -/
theorem GrWork.txStep {s : ServerId c} {st : GrServerState c} {e : GrEvent c} {r : GrOutcome c}
    (hw : GrWork s st e r) (hst : GrFormed s st) : GrTxStep s st e r := by
  have hnone : ∀ {outs : List (GrOut c)}, (∀ o ∈ outs, grPieces (o.place s, o.event) = 0) →
      (outs.map fun o => grPieces (o.place s, o.event)).sum = 0 := by
    intro outs h
    refine List.sum_eq_zero fun y hy => ?_
    obtain ⟨o, ho, rfl⟩ := List.mem_map.mp hy
    exact h o ho
  -- a handler that does nothing for transactions
  have hsame : ((r.placed s).map grPieces).sum = grPieces (.inl s, e) →
      r.state.rotxStates = st.rotxStates → r.state.snapshotStates = st.snapshotStates →
      (∀ o ∈ r.outs, ∀ response, o.event ≠ .rotxResponse response) →
      grSnapshotTaken st e = none → grSliceTaken r e = none → GrTxStep s st e r := by
    intro hpieces hrotx hsnapshot hanswers htaken hslice
    refine .pass st.gst ?_ ?_ hsnapshot (fun _ => grRotxAnswersTo_eq_nil hanswers) htaken hslice
    · rw [hpieces, grWoken_self, add_zero]
    · rw [hrotx, grUpdateGst_self]
  have hsend : ∀ {lpid : Lpid c} {e : GrEvent c}, (∀ response, e ≠ .rotxResponse response) →
      ∀ response, (grSend lpid e).event ≠ .rotxResponse response := by
    intro lpid e he response
    cases lpid <;> exact he response
  cases hw with
  | other he _ _ hsnapshot hrotx hnew =>
    refine hsame ?_ hrotx hsnapshot (fun o ho => ?_) (he.snapshotTaken st) (he.sliceTaken r)
    · rw [sum_grPieces_eq_zero fun x hx => grPieces_other (hnew x hx), grPieces_other he]
    · exact (hnew _ (Outcome.mem_placed.mpr (.inl ⟨o, ho, rfl⟩))).not_answer
  | wake he gst others hstate hplaced hothers =>
    refine .pass gst ?_ (hstate ▸ rfl) (by rw [hstate, grUpdateGst_snapshotStates])
      (fun k => grRotxAnswersTo_eq_nil fun o ho => ?_) (he.snapshotTaken st) (he.sliceTaken r)
    · rw [hplaced, List.map_append, List.sum_append, List.map_map,
        sum_grPieces_eq_zero fun x hx => grPieces_other (hothers x hx), grPieces_other he,
        add_zero, zero_add]
      rfl
    · have hmem : (o.place s, o.event) ∈ r.placed s := Outcome.mem_placed.mpr (.inl ⟨o, ho, rfl⟩)
      rw [hplaced] at hmem
      rcases List.mem_append.mp hmem with hmem | hmem
      · obtain ⟨o', ho', heq⟩ := List.mem_map.mp hmem
        have hevent : o'.event = o.event := congrArg Prod.snd heq
        rw [← hevent]
        exact grUpdateGst_not_answer st gst o' ho'
      · exact (hothers _ hmem).not_answer
  | @getForward request cont _ hcont =>
    refine hsame ?_ rfl rfl (List.forall_mem_singleton.mpr (by rintro _ ⟨⟩)) rfl rfl
    have hevent : cont.event?.elim 0 (fun e => grPieces (.inl s, e)) =
        (0 : GrTx c → Multiset (GrPiece c)) := by
      cases hce : cont.event? with
      | none => rfl
      | some e => exact grPieces_other (x := (.inl s, e)) (hcont e hce)
    rw [Outcome.sum_placed, hevent]
    rfl
  | getOpen => exact hsame rfl rfl rfl (List.forall_mem_nil _) rfl rfl
  | getServe =>
    refine hsame ?_ rfl rfl (List.forall_mem_singleton.mpr (hsend (by rintro _ ⟨⟩))) rfl rfl
    rw [Outcome.sum_placed, hnone (List.forall_mem_singleton.mpr (grSend_pieces ?_))]
    · rfl
    · rintro (_ | _) <;> rfl
  | @getLocked id getState hget =>
    refine .pass getState.gst ?_ rfl (grUpdateGst_snapshotStates st _)
      (fun _ => grRotxAnswersTo_eq_nil (grUpdateGst_not_answer st _)) rfl rfl
    rw [Outcome.sum_placed, add_comm]
    rfl
  | getUnlocked =>
    refine hsame ?_ rfl rfl (List.forall_mem_singleton.mpr (hsend (by rintro _ ⟨⟩))) rfl rfl
    rw [Outcome.sum_placed, hnone (List.forall_mem_singleton.mpr (grSend_pieces ?_))]
    · rfl
    · rintro (_ | _) <;> rfl
  | getResponse => exact hsame rfl rfl rfl (List.forall_mem_singleton.mpr (by rintro _ ⟨⟩)) rfl rfl
  | putForward => exact hsame rfl rfl rfl (List.forall_mem_singleton.mpr (by rintro _ ⟨⟩)) rfl rfl
  | putDefer => exact hsame rfl rfl rfl (List.forall_mem_singleton.mpr (by rintro _ ⟨⟩)) rfl rfl
  | putOpen => exact hsame rfl rfl rfl (List.forall_mem_nil _) rfl rfl
  | putLocked => exact hsame rfl rfl rfl (List.forall_mem_nil _) rfl rfl
  | @putUnlocked id putState stamp hput hstamp =>
    refine hsame ?_ rfl rfl (List.forall_mem_cons.mpr ⟨hsend (by rintro _ ⟨⟩), fun o ho => ?_⟩)
      rfl rfl
    · rw [Outcome.sum_placed, hnone (List.forall_mem_cons.mpr ⟨grSend_pieces ?_, fun o ho => ?_⟩)]
      · rfl
      · rintro (_ | _) <;> rfl
      · split at ho
        · cases ho
        · obtain ⟨s', -, rfl⟩ := List.mem_map.mp ho
          rfl
    · split at ho
      · cases ho
      · obtain ⟨s', -, rfl⟩ := List.mem_map.mp ho
        rintro _ ⟨⟩
  | putResponse => exact hsame rfl rfl rfl (List.forall_mem_singleton.mpr (by rintro _ ⟨⟩)) rfl rfl
  | @rotxRequest request =>
    refine .ask request rfl ?_ rfl rfl fun k => grRotxAnswersTo_eq_nil fun o ho => ?_
    · rw [Outcome.sum_placed]
      by_cases hle : request.dependencyTime ≤ st.gst
      · rw [if_pos hle]
        simp only [hle, decide_true, Bool.not_true, Bool.false_eq_true, if_false, List.map_cons,
          List.map_nil, List.sum_cons, List.sum_nil, add_zero]
        exact add_zero _
      · rw [if_neg hle]
        simp only [hle, decide_false, Bool.not_false, if_true]
        rfl
    · dsimp only at ho
      split at ho
      · cases ho
      · obtain rfl := List.mem_singleton.mp ho
        rintro _ ⟨⟩
  | snapshotRequest =>
    exact .take _ rfl (by rw [Outcome.sum_placed]; exact zero_add _) rfl rfl
      fun _ => grRotxAnswersTo_eq_nil (List.forall_mem_nil _)
  | @snapshotLocked id snapshot hget =>
    refine .lock id snapshot rfl hget ?_ rfl ?_
      fun _ => grRotxAnswersTo_eq_nil (grUpdateGst_not_answer st _)
    · rw [Outcome.sum_placed, add_comm]
      rfl
    · rw [grUpdateGst_snapshotStates, grUpdateGst_gst]
  | @snapshotUnlocked id snapshot hget =>
    refine .scatter id snapshot rfl hget ?_ rfl rfl fun k => grRotxAnswersTo_eq_nil fun o ho => ?_
    · rw [Outcome.sum_placed, sum_grSliceRequests_pieces]
      exact add_zero _
    · obtain ⟨i, hi, rfl⟩ := List.mem_mapIdx.mp ho
      rintro _ ⟨⟩
  | sliceRequest =>
    exact hsame (by rw [Outcome.sum_placed]; exact zero_add _) rfl rfl (List.forall_mem_nil _) rfl rfl
  | @sliceLocked request =>
    refine .pass request.snapshotTime ?_ rfl (grUpdateGst_snapshotStates st _)
      (fun _ => grRotxAnswersTo_eq_nil (grUpdateGst_not_answer st _)) rfl rfl
    rw [Outcome.sum_placed, add_comm]
    rfl
  | @sliceServe _ request he =>
    have hpieces : grPieces (.inl request.fromLpid, .sliceResponse (grSliceAnswer st request)) =
        grPieces (.inl s, e) := by
      rcases he with rfl | ⟨rfl, -⟩ <;> rfl
    refine hsame ?_ rfl rfl (List.forall_mem_singleton.mpr (by rintro _ ⟨⟩)) ?_ ?_
    · rw [Outcome.sum_placed, ← hpieces]
      exact (add_zero _).trans (add_zero _)
    · rcases he with rfl | ⟨rfl, -⟩ <;> rfl
    · rcases he with rfl | ⟨rfl, -⟩ <;> rfl
  | sliceResponse =>
    exact hsame (by rw [Outcome.sum_placed]; exact zero_add _) rfl rfl (List.forall_mem_nil _) rfl rfl
  | @receiveLocked slice =>
    refine .pass slice.gst ?_ rfl (grUpdateGst_snapshotStates st _)
      (fun _ => grRotxAnswersTo_eq_nil (grUpdateGst_not_answer st _)) rfl rfl
    rw [Outcome.sum_placed, add_comm]
    rfl
  | @receive _ slice snapshot he hget hmore =>
    refine .receive slice snapshot ?_ hget hmore rfl rfl rfl
      fun _ => grRotxAnswersTo_eq_nil (List.forall_mem_nil _)
    rcases he with rfl | rfl <;> rfl
  | @receiveLast _ slice snapshot rotx he hget hlast hrotx =>
    refine .answer slice snapshot rotx ?_ hget hlast hrotx rfl rfl rfl rfl
    rcases he with rfl | rfl <;> rfl
  | abroad _ hget hclient => exact absurd (hst.snapshot _ _ hget) hclient

/-- Waking up asks for snapshots, and for nothing else. -/
theorem grWoken_of_ne {s : ServerId c} {tx : GrTx c} (h : ∀ id, tx ≠ .rotx s id)
    (st : GrServerState c) (gst : ℚ) : grWoken s st gst tx = 0 := by
  rw [grWoken, Pi.list_sum_apply, List.map_map]
  refine List.sum_eq_zero fun y hy => ?_
  obtain ⟨o, ho, rfl⟩ := List.mem_map.mp hy
  obtain ⟨id, rotx, -, rfl⟩ := grUpdateGst_out ho
  exact GrTx.one_of_ne (h rotx.snapshotRequest.requestId) _

theorem grSliceTaken_some (s : ServerId c) (st : GrServerState c) {e : GrEvent c}
    {r : GrOutcome c} {slice : GrSliceResponse c} (h : grSliceTaken r e = some slice) :
    grPieces (.inl s, e) = (GrTx.snapshot s slice.snapshotId).one {slice.piece} ∧
      grSnapshotTaken st e = none := by
  cases e with
  | sliceResponse slice' =>
    simp only [grSliceTaken, Option.ite_none_right_eq_some, Option.some.injEq] at h
    obtain ⟨-, rfl⟩ := h
    exact ⟨rfl, rfl⟩
  | sliceResponseUnlocked slice' =>
    cases h
    exact ⟨rfl, rfl⟩
  | _ => cases h

/-! ## 4. The transaction of a client -/

/-- A transaction in its slot is what the client has asked for. -/
structure GrRotxState.For (rotx : GrRotxState c) (s : ServerId c) (id : ℕ)
    (request : GrGetRotxRequest c) : Prop where
  client : rotx.client = request.client
  dependencyTime : rotx.dependencyTime = request.dependencyTime
  snapshotRequest : rotx.snapshotRequest =
    { requestId := id, client := .server s, gst := request.gst, keys := request.keys }

/-- No slot of the server is taken by a transaction of the client. -/
def GrFreeOf (k : ClientId c) (st : GrServerState c) : Prop :=
  ∀ id rotx, ptrArrayGet st.rotxStates id = some rotx → rotx.client ≠ k

/-- Where the transaction of a client is that was not answered yet: it was sent, or has a slot. -/
inductive GrPending (k : ClientId c) (pieces : Multiset (GrPiece c)) (st : GrServerState c) :
    Option (GrGetRotxRequest c) → Prop
  | idle (hpieces : pieces = 0) (hfree : GrFreeOf k st) : GrPending k pieces st none
  | sent {request : GrGetRotxRequest c} (hclient : request.client = k)
      (hpieces : pieces = {.asked k.server request}) (hfree : GrFreeOf k st) :
      GrPending k pieces st (some request)
  | held {request : GrGetRotxRequest c} {id : ℕ} {rotx : GrRotxState c}
      (hclient : request.client = k) (hpieces : pieces = 0)
      (hget : ptrArrayGet st.rotxStates id = some rotx) (hfor : rotx.For k.server id request)
      (honly : ∀ id' rotx', ptrArrayGet st.rotxStates id' = some rotx' → rotx'.client = k →
        id' = id) : GrPending k pieces st (some request)

/-- The account of a client: its transaction is at its server, where the history says. -/
structure GrAccount (k : ClientId c) (h : List (GrAct c)) (pieces : Multiset (GrPiece c))
    (server : ServerId c → GrServerState c) : Prop where
  elsewhere : ∀ s, s ≠ k.server → GrFreeOf k (server s)
  pending : GrPending k pieces (server k.server) (grAsked k h)

/-- The slots of a client's transactions are the same, except that some do not wait any more. -/
structure GrSameSlots (k : ClientId c) (st st' : GrServerState c) : Prop where
  back : ∀ id rotx', ptrArrayGet st'.rotxStates id = some rotx' → rotx'.client = k →
    ∃ rotx, ptrArrayGet st.rotxStates id = some rotx ∧
      rotx' = { rotx with waitingGst := rotx'.waitingGst }
  forth : ∀ id rotx, ptrArrayGet st.rotxStates id = some rotx → rotx.client = k →
    ∃ rotx', ptrArrayGet st'.rotxStates id = some rotx' ∧
      rotx' = { rotx with waitingGst := rotx'.waitingGst }

section Slots

variable {k : ClientId c} {st st' : GrServerState c} {pieces : Multiset (GrPiece c)}
  {asked : Option (GrGetRotxRequest c)}

theorem GrFreeOf.same (h : GrFreeOf k st) (hs : GrSameSlots k st st') : GrFreeOf k st' := by
  intro id rotx' hget hk
  obtain ⟨rotx, hrotx, heq⟩ := hs.back id rotx' hget hk
  refine h id rotx hrotx ?_
  rw [heq] at hk
  exact hk

theorem GrPending.same (h : GrPending k pieces st asked) (hs : GrSameSlots k st st') :
    GrPending k pieces st' asked := by
  cases h with
  | idle hpieces hfree => exact .idle hpieces (hfree.same hs)
  | sent hclient hpieces hfree => exact .sent hclient hpieces (hfree.same hs)
  | @held request id rotx hclient hpieces hget hfor honly =>
    obtain ⟨rotx', hget', heq⟩ := hs.forth id rotx hget (hfor.client.trans hclient)
    refine .held hclient hpieces hget' ?_ fun id' rotx'' hget'' hk => ?_
    · rw [heq]
      exact ⟨hfor.client, hfor.dependencyTime, hfor.snapshotRequest⟩
    · obtain ⟨rotx₀, hrotx₀, heq₀⟩ := hs.back id' rotx'' hget'' hk
      rw [heq₀] at hk
      exact honly id' rotx₀ hrotx₀ hk

theorem GrSameSlots.of_eq (h : st'.rotxStates = st.rotxStates) : GrSameSlots k st st' where
  back id rotx' hget _ := ⟨rotx', h ▸ hget, rfl⟩
  forth id rotx hget _ := ⟨rotx, by rw [h]; exact hget, rfl⟩

/-- An update of the stable time only wakes up. -/
theorem GrSameSlots.of_woken {gst : ℚ}
    (h : st'.rotxStates = (grUpdateGst st gst).1.rotxStates) : GrSameSlots k st st' where
  back id rotx' hget _ := by
    rw [h] at hget
    obtain ⟨rotx, hrotx, rfl | ⟨rfl, -⟩⟩ := grUpdateGst_rotx hget
    · exact ⟨_, hrotx, rfl⟩
    · exact ⟨rotx, hrotx, rfl⟩
  forth id rotx hget _ := by
    rw [h]
    unfold grUpdateGst grRotxOnGstUpdated
    split
    · refine ⟨_, by rw [ptrArrayGet_map, hget]; rfl, ?_⟩
      simp only [grRotxGstUpdateCallback]
      split <;> rfl
    · exact ⟨rotx, hget, rfl⟩

/-- A slot is taken for another client. -/
theorem GrSameSlots.of_put {rotx₀ : GrRotxState c}
    (h : st'.rotxStates = ptrArrayPut rotx₀ st.rotxStates) (hk : rotx₀.client ≠ k) :
    GrSameSlots k st st' where
  back id rotx' hget hclient := by
    rw [h, ptrArrayPut_get] at hget
    split at hget
    · cases hget
      exact absurd hclient hk
    · exact ⟨rotx', hget, rfl⟩
  forth id rotx hget _ := by
    have hne : id ≠ ptrArrayFree st.rotxStates := by
      rintro rfl
      rw [ptrArrayFree_get] at hget
      cases hget
    exact ⟨rotx, by rw [h, ptrArrayPut_get, if_neg hne]; exact hget, rfl⟩

/-- A slot of another client is freed. -/
theorem GrSameSlots.of_free {id₀ : ℕ} {rotx₀ : GrRotxState c}
    (h : st'.rotxStates = ptrArraySet st.rotxStates id₀ none)
    (hget₀ : ptrArrayGet st.rotxStates id₀ = some rotx₀) (hk : rotx₀.client ≠ k) :
    GrSameSlots k st st' where
  back id rotx' hget _ := by
    rw [h, ptrArraySet_get hget₀] at hget
    split at hget
    · cases hget
    · exact ⟨rotx', hget, rfl⟩
  forth id rotx hget hclient := by
    have hne : id ≠ id₀ := by
      rintro rfl
      rw [hget₀] at hget
      cases hget
      exact hk hclient
    exact ⟨rotx, by rw [h, ptrArraySet_get hget₀, if_neg hne]; exact hget, rfl⟩

end Slots

section Account

variable {k : ClientId c} {h : List (GrAct c)} {server : ServerId c → GrServerState c}
  {s : ServerId c} {t : ℚ} {e : GrEvent c} {r : GrOutcome c} {rest : Multiset (GrPiece c)}

theorem grAsked_of_silent {st : GrServerState c} (h₀ : grRotxAnswersTo k r.outs = []) :
    grAsked k (.server s t e st r :: h) = grAsked k h :=
  pending_of_neither rfl (by simp [grRotxAnswers, h₀])

/-- A handler call that is nothing to the client. -/
theorem GrAccount.same {st : GrServerState c} {pieces pieces' : Multiset (GrPiece c)}
    (hk : GrAccount k h pieces server) (hpieces : pieces' = pieces)
    (hanswers : grRotxAnswersTo k r.outs = []) (hs : GrSameSlots k (server s) r.state) :
    GrAccount k (.server s t e st r :: h) pieces' (Function.update server s r.state) := by
  refine ⟨fun s' hs' => ?_, ?_⟩
  · by_cases hse : s' = s
    · subst hse
      rw [Function.update_self]
      exact (hk.elsewhere s' hs').same hs
    · rw [Function.update_of_ne hse]
      exact hk.elsewhere s' hs'
  · rw [grAsked_of_silent hanswers, hpieces]
    by_cases hse : k.server = s
    · subst hse
      rw [Function.update_self]
      exact hk.pending.same hs
    · rw [Function.update_of_ne hse]
      exact hk.pending

/-- **A handler call keeps the account of every client.** -/
theorem GrAccount.serve {st : GrServerState c} (hs : GrTxStep s st e r)
    (hst : st.rotxStates = (server s).rotxStates)
    (hk : GrAccount k h (grPieces (.inl s, e) (.client k) + rest) server) :
    GrAccount k (.server s t e (server s) r :: h)
      (((r.placed s).map grPieces).sum (.client k) + rest) (Function.update server s r.state) := by
  have hsame : ∀ {st'}, GrSameSlots k st st' → GrSameSlots k (server s) st' := by
    intro st' h
    refine ⟨?_, ?_⟩
    · rw [← hst]
      exact h.back
    · rw [← hst]
      exact h.forth
  have hwoken : ∀ gst, grWoken s st gst (.client k) = 0 := grWoken_of_ne (by rintro _ ⟨⟩) st
  cases hs with
  | pass gst hpieces hrotx _ hanswers =>
    refine hk.same ?_ (hanswers k) (hsame (.of_woken hrotx))
    rw [hpieces, Pi.add_apply, hwoken, add_zero]
  | take request he hpieces hrotx _ hanswers =>
    refine hk.same ?_ (hanswers k) (hsame (.of_eq hrotx))
    rw [hpieces, he]
    simp [grPieces]
  | lock id snapshot he _ hpieces hrotx _ hanswers =>
    refine hk.same ?_ (hanswers k) (hsame (.of_woken hrotx))
    rw [hpieces, he, Pi.add_apply, hwoken]
    simp [grPieces]
  | scatter id snapshot he _ hpieces hrotx _ hanswers =>
    refine hk.same ?_ (hanswers k) (hsame (.of_eq hrotx))
    rw [hpieces, he]
    simp [grPieces]
  | receive slice snapshot he _ _ hpieces hrotx _ hanswers =>
    refine hk.same ?_ (hanswers k) (hsame (.of_eq hrotx))
    rw [hpieces, (grSliceTaken_some s st he).1]
    simp
  | ask request he hpieces hrotx _ hanswers =>
    have hnew : ((r.placed s).map grPieces).sum (.client k) = 0 := by
      rw [hpieces]
      split <;> simp
    by_cases hclient : request.client = k
    · -- the transaction of the client takes its slot
      have hown : grPieces (.inl s, e) (.client k) = {.asked s request} := by
        rw [he, ← hclient]
        exact GrTx.one_self _ _
      obtain ⟨helse, hpending⟩ := hk
      rw [hown, Multiset.singleton_add] at hpending
      generalize hasked : grAsked k h = asked at hpending
      cases hpending with
      | idle hzero => exact absurd hzero (Multiset.cons_ne_zero)
      | held _ hzero => exact absurd hzero (Multiset.cons_ne_zero)
      | @sent request' _ hone hfree =>
        obtain ⟨hpiece, rfl⟩ := Multiset.singleton_eq_cons_iff _ |>.mp hone.symm
        cases hpiece
        have hslots : r.state.rotxStates = ptrArrayPut (request.state k.server
            (ptrArrayFree (server k.server).rotxStates) st.gst) (server k.server).rotxStates := by
          rw [hrotx, hst]
        refine ⟨fun s' hs' => ?_, ?_⟩
        · rw [Function.update_of_ne hs']
          exact helse s' hs'
        · rw [grAsked_of_silent (hanswers k), hasked, hnew, Function.update_self]
          have hget := ptrArrayPut_get (request.state k.server
            (ptrArrayFree (server k.server).rotxStates) st.gst) (server k.server).rotxStates
            (ptrArrayFree (server k.server).rotxStates)
          rw [if_pos rfl, ← hslots] at hget
          refine .held hclient (add_zero _) hget ⟨rfl, rfl, rfl⟩ fun id' rotx' hget' hk' => ?_
          rw [hslots, ptrArrayPut_get] at hget'
          split at hget'
          · assumption
          · exact absurd hk' (hfree id' rotx' hget')
    · refine hk.same ?_ (hanswers k) (hsame (.of_put hrotx hclient))
      rw [hnew, he]
      exact congrArg (· + rest) (GrTx.one_of_ne (by rintro ⟨⟩; exact hclient rfl) _).symm
  | answer slice snapshot rotx he _ _ hfor hpieces hrotx _ houts =>
    have hown : grPieces (.inl s, e) (.client k) = 0 := by
      rw [(grSliceTaken_some s st he).1]
      simp
    by_cases hclient : rotx.client = k
    · -- the transaction of the client is answered
      rw [hst] at hfor hrotx
      obtain ⟨helse, hpending⟩ := hk
      obtain rfl : s = k.server := by
        by_contra hne
        exact helse s hne _ rotx hfor hclient
      have hasked : grAsked k (.server k.server t e (server k.server) r :: h) = none :=
        pending_of_answers rfl (by simp [grRotxAnswers, grRotxAnswersTo, houts, hclient])
      rw [hown, zero_add] at hpending
      generalize grAsked k h = asked at hpending
      refine ⟨fun s' hs' => ?_, ?_⟩
      · rw [Function.update_of_ne hs']
        exact helse s' hs'
      · rw [hasked, hpieces, Function.update_self, Pi.zero_apply, zero_add]
        cases hpending with
        | idle _ hfree => exact absurd hclient (hfree _ rotx hfor)
        | sent _ _ hfree => exact absurd hclient (hfree _ rotx hfor)
        | @held request id rotx' _ hzero hget hfor' honly =>
          refine .idle hzero fun id' rotx₁ hget₁ hk₁ => ?_
          rw [hrotx, ptrArraySet_get hfor] at hget₁
          split at hget₁
          · cases hget₁
          · rename_i hne
            exact hne ((honly id' rotx₁ hget₁ hk₁).trans (honly _ rotx hfor hclient).symm)
    · refine hk.same ?_ ?_ (hsame (.of_free hrotx hfor hclient))
      · rw [hpieces, hown]
        rfl
      · simp [grRotxAnswersTo, houts, hclient]

/-- What a client sends is under way for itself, and only if it is a transaction. -/
theorem grClientProcessEvent_pieces {k' : ClientId c} {decision : Decision} {st : GrClientState c}
    {r : GrClientState c × List (GrOut c)}
    (h : grClientProcessEvent k' t decision st e = some r) :
    grPieces (.inr k', e) = 0 ∧
      (((placedOfClient k' r.2).map grPieces).sum = 0 ∧ grRotxAsks k' (.client k' t e st r) = [] ∨
        ∃ request st', request.client = k' ∧
          ((placedOfClient k' r.2).map grPieces).sum =
            (GrTx.client k').one {.asked k'.server request} ∧
          grRotxAsks k' (.client k' t e st r) = [request] ∧
          GrLearn k' st e st' ∧ st'.requestTime = none) := by
  obtain ⟨st', hlearn, -, hasks⟩ := grClientProcessEvent_asks h
  refine ⟨by cases hlearn <;> rfl, ?_⟩
  rcases grClientProcessEvent_sends h with hout | ⟨delay, hout⟩ | ⟨e', st₁, hout, hlearn₁, hnone⟩
  · exact .inl ⟨by rw [hout]; rfl, by simp [grRotxAsks, hout]⟩
  · exact .inl ⟨by rw [hout]; rfl, by simp [grRotxAsks, hout]⟩
  · have hask : GrAsk k' r.1 (.inl k'.server, e') := by
      refine hasks _ ?_
      rw [hout]
      exact List.mem_singleton_self _
    cases hask with
    | get key => exact .inl ⟨by rw [hout]; rfl, by simp [grRotxAsks, hout]⟩
    | put key value => exact .inl ⟨by rw [hout]; rfl, by simp [grRotxAsks, hout]⟩
    | rotx keys =>
      refine .inr ⟨{ client := k', dependencyTime := r.1.dependencyTime, keys := keys,
                     gst := r.1.gst }, st₁, rfl, ?_, by simp [grRotxAsks, hout], hlearn₁, hnone⟩
      rw [hout]
      exact add_zero _

/-- What does not refer to a client is not under way for it. -/
theorem grPieces_client {x : (ServerId c ⊕ ClientId c) × GrEvent c}
    (h : grRefs x (.client k) = 0) : grPieces x (.client k) = 0 := by
  unfold grPieces
  split
  · rename_i s request
    refine GrTx.one_of_ne (fun heq => ?_) _
    cases heq
    have hone : grRefs (.inl s, .rotxRequest request) (.client request.client) = 1 :=
      GrRef.one_self _
    rw [hone] at h
    cases h
  all_goals first | exact GrTx.one_of_ne (by rintro ⟨⟩) _ | rfl

/-- Nothing is under way for a client that is alone. -/
theorem GrAlone.pieces {mail : Multiset ((ServerId c ⊕ ClientId c) × GrEvent c)}
    (h : GrAlone server mail k) : (mail.map fun x => grPieces x (.client k)).sum = 0 := by
  refine Multiset.sum_eq_zero fun y hy => ?_
  obtain ⟨x, hx, rfl⟩ := Multiset.mem_map.mp hy
  exact grPieces_client (h.events x hx)

/-- **A client asks for a transaction only if none is under way.** -/
theorem GrAccount.client {k' : ClientId c} {decision : Decision} {st : GrClientState c}
    {r : GrClientState c × List (GrOut c)} (hr : grClientProcessEvent k' t decision st e = some r)
    (halone : ∀ st', GrLearn k' st e st' → st'.requestTime = none →
      (∀ s, GrFreeOf k' (server s)) ∧ (k' = k → rest = 0))
    (hk : GrAccount k h (grPieces (.inr k', e) (.client k) + rest) server) :
    GrAccount k (.client k' t e st r :: h)
        (((placedOfClient k' r.2).map grPieces).sum (.client k) + rest) server ∧
      (grRotxAsks k (.client k' t e st r) ≠ [] → grAsked k h = none) := by
  obtain ⟨hown, hnew⟩ := grClientProcessEvent_pieces hr
  rw [hown, Pi.zero_apply, zero_add] at hk
  by_cases hkk : k' = k
  · subst hkk
    rcases hnew with ⟨hpieces, hasks⟩ | ⟨request, st', hclient, hpieces, hasks, hlearn, hnone⟩
    · have hasked : grAsked k' (.client k' t e st r :: h) = grAsked k' h :=
        pending_of_neither (by rw [hasks]; rfl) rfl
      refine ⟨⟨hk.elsewhere, ?_⟩, fun hne => absurd hasks hne⟩
      rw [hpieces, hasked, Pi.zero_apply, zero_add]
      exact hk.pending
    · have hasked : grAsked k' (.client k' t e st r :: h) = some request :=
        pending_of_asks (by rw [hasks]; rfl)
      obtain ⟨hfree, hrest⟩ := halone st' hlearn hnone
      obtain rfl := hrest rfl
      refine ⟨⟨hk.elsewhere, ?_⟩, fun _ => ?_⟩
      · rw [hpieces, hasked, GrTx.one_self, add_zero]
        exact .sent hclient rfl (hfree _)
      · have hpending := hk.pending
        generalize grAsked k' h = asked at hpending ⊢
        cases hpending with
        | idle => rfl
        | sent _ hzero => exact absurd hzero.symm (Multiset.singleton_ne_zero _)
        | held hclient _ hget hfor => exact absurd (hfor.client.trans hclient) (hfree _ _ _ hget)
  · have hasks : grRotxAsks k (.client k' t e st r) = [] := if_neg hkk
    have hzero : ((placedOfClient k' r.2).map grPieces).sum (.client k) = 0 := by
      rcases hnew with ⟨hpieces, -⟩ | ⟨request, st', -, hpieces, -⟩
      · rw [hpieces]
        rfl
      · rw [hpieces]
        exact GrTx.one_of_ne (by rintro ⟨⟩; exact hkk rfl) _
    have hasked : grAsked k (.client k' t e st r :: h) = grAsked k h :=
      pending_of_neither (by rw [hasks]; rfl) rfl
    refine ⟨⟨hk.elsewhere, ?_⟩, fun hne => absurd hasks hne⟩
    rw [hzero, hasked, zero_add]
    exact hk.pending

end Account

theorem sum_placed_apply (tx : GrTx c) (l : List ((ServerId c ⊕ ClientId c) × GrEvent c)) :
    (l.map grPieces).sum tx = (l.map fun x => grPieces x tx).sum := by
  rw [Pi.list_sum_apply, List.map_map]
  rfl

section Runs

variable {setup : Setup c (GrEvent c)} {Q : GrAct c → Prop} {M : GrMail c} {h : List (GrAct c)}

theorem grPieces_start (tx : GrTx c) :
    ((grWorld setup).config.mail.events.map fun x => grPieces x tx).sum = 0 := by
  refine Multiset.sum_eq_zero fun y hy => ?_
  obtain ⟨x, hx, rfl⟩ := Multiset.mem_map.mp hy
  rcases Setup.mem_mail hx with ⟨s, rfl, -⟩ | ⟨s, rfl⟩ | ⟨k, rfl⟩ <;> rfl

/-- **The account of every client is in order in every state of a run.** -/
theorem gr_account (hr : Mail.Run (grProgram c) Q (grWorld setup).config.mail M h)
    (k : ClientId c) :
    GrAccount k h (M.events.map fun x => grPieces x (.client k)).sum M.server := by
  refine hr.account (fun x => grPieces x (.client k)) (GrAccount k) ?_ ?_ ?_
  · intro M h s t e r mail hrun hev hserve hk
    have hst : GrFormed s { M.server s with now := t, clock := c.clock s t } :=
      ((gr_formed hrun).1 s).of_eq rfl rfl rfl rfl
    have hstep := (grProcessEvent_work (grServerProcessEvent_some hserve)).txStep hst
    rw [← sum_placed_apply]
    exact GrAccount.serve hstep rfl hk
  · intro M h k' t decision e r mail hrun hev hclient hk
    rw [← sum_placed_apply]
    refine (hk.client hclient fun st' hlearn hnone => ?_).1
    have halone := gr_asks_alone hrun hev hlearn hnone
    exact ⟨halone.rotx, by rintro rfl; exact halone.pieces⟩
  · rw [grPieces_start]
    exact ⟨fun s _ => by rintro id rotx ⟨⟩, .idle rfl (by rintro id rotx ⟨⟩)⟩

/-- A client asks for one transaction at a time, and only if it has been answered the last one. -/
theorem gr_asks_once {A : Config (ServerId c) (ClientId c) (GrEvent c) (GrServerState c)
      (GrClientState c)} {C : GrCond c} {a : GrAct c} {past later : List (GrAct c)}
    (hr : Run (grProgram c) C (grWorld setup).config A (later ++ a :: past)) {k : ClientId c}
    {request : GrGetRotxRequest c} (hask : request ∈ grRotxAsks k a) :
    grRotxAsks k a = [request] ∧ grAsked k past = none := by
  obtain ⟨N, N', hrun, hstep⟩ := (hr.mail (Q := fun _ => True) fun _ _ => trivial).before rfl
  cases hstep with
  | serve => cases hask
  | @client k' t decision e r mail hev ht hclient =>
    have hkk : k' = k := by
      by_contra hkk
      rw [grRotxAsks, if_neg hkk] at hask
      cases hask
    subst hkk
    have haccount := gr_account hrun k'
    rw [hev, Multiset.map_cons, Multiset.sum_cons] at haccount
    have hasked := (haccount.client hclient fun st' hlearn hnone => by
      have halone := gr_asks_alone hrun hev hlearn hnone
      exact ⟨halone.rotx, fun _ => halone.pieces⟩).2 (List.ne_nil_of_mem hask)
    rcases (grClientProcessEvent_pieces hclient).2 with ⟨-, hnil⟩ | ⟨request', _, -, -, hone, -⟩
    · rw [hnil] at hask
      cases hask
    · rw [hone] at hask ⊢
      obtain rfl := List.mem_singleton.mp hask
      exact ⟨rfl, hasked⟩

end Runs

/-! ## 5. Transactions that do not wait -/

/-- The transaction has a slot, and does not wait any more. -/
structure GrReady (st : GrServerState c) (rotx : GrRotxState c) : Prop where
  get : ptrArrayGet st.rotxStates rotx.snapshotRequest.requestId = some rotx
  idle : rotx.waitingGst = false

section Ready

variable {s : ServerId c} {st st' : GrServerState c} {rotx : GrRotxState c}

theorem GrReady.of_eq (h : GrReady st rotx) (hrotx : st'.rotxStates = st.rotxStates) :
    GrReady st' rotx :=
  ⟨by rw [hrotx]; exact h.get, h.idle⟩

/-- Who does not wait is not woken up. -/
theorem GrReady.woken {gst : ℚ} (h : GrReady st rotx)
    (hrotx : st'.rotxStates = (grUpdateGst st gst).1.rotxStates) : GrReady st' rotx := by
  refine ⟨?_, h.idle⟩
  rw [hrotx]
  unfold grUpdateGst grRotxOnGstUpdated
  split
  · rw [ptrArrayGet_map, h.get, Option.map_some, grRotxGstUpdateCallback, h.idle,
      if_neg (by rintro ⟨⟨⟩, -⟩)]
  · exact h.get

theorem GrReady.put {rotx₀ : GrRotxState c} (h : GrReady st rotx)
    (hrotx : st'.rotxStates = ptrArrayPut rotx₀ st.rotxStates) : GrReady st' rotx := by
  refine ⟨?_, h.idle⟩
  rw [hrotx, ptrArrayPut_get, if_neg, h.get]
  intro hid
  have hget := h.get
  rw [hid, ptrArrayFree_get] at hget
  cases hget

/-- A transaction keeps its slot until the last slice of its snapshot is there. -/
theorem GrReady.step {e : GrEvent c} {r : GrOutcome c} (h : GrReady st rotx)
    (hs : GrTxStep s st e r) : GrReady r.state rotx ∨ ∃ slice snapshot,
      grSliceTaken r e = some slice ∧
        ptrArrayGet st.snapshotStates slice.snapshotId = some snapshot ∧
          snapshot.requestId = rotx.snapshotRequest.requestId := by
  cases hs with
  | pass gst _ hrotx => exact .inl (h.woken hrotx)
  | ask request _ _ hrotx => exact .inl (h.put hrotx)
  | take request _ _ hrotx => exact .inl (h.of_eq hrotx)
  | lock id snapshot _ _ _ hrotx => exact .inl (h.woken hrotx)
  | scatter id snapshot _ _ _ hrotx => exact .inl (h.of_eq hrotx)
  | receive slice snapshot _ _ _ _ hrotx => exact .inl (h.of_eq hrotx)
  | answer slice snapshot rotx' he hget _ hfor _ hrotx =>
    by_cases hid : snapshot.requestId = rotx.snapshotRequest.requestId
    · exact .inr ⟨slice, snapshot, he, hget, hid⟩
    · refine .inl ⟨?_, h.idle⟩
      rw [hrotx, ptrArraySet_get hfor, if_neg (Ne.symm hid)]
      exact h.get

/-- What is sent when transactions are woken up. -/
theorem grUpdateGst_woken {gst : ℚ} {o : GrOut c} (h : o ∈ (grUpdateGst st gst).2) :
    ∃ id rotx, ptrArrayGet st.rotxStates id = some rotx ∧
      ptrArrayGet (grUpdateGst st gst).1.rotxStates id = some { rotx with waitingGst := false } ∧
        o = grSendRotxSnapshotRequest rotx := by
  unfold grUpdateGst grRotxOnGstUpdated at h ⊢
  split at h
  · rename_i hlt
    rw [if_pos hlt]
    obtain ⟨x, hx, ho⟩ := List.mem_flatMap.mp h
    cases x with
    | none => cases ho
    | some rotx =>
      obtain ⟨id, hid⟩ := List.getElem?_of_mem hx
      have hget : ptrArrayGet st.rotxStates id = some rotx := by
        rw [ptrArrayGet, hid]
        rfl
      simp only [grRotxGstUpdateCallback] at ho
      split at ho
      · rename_i hwake
        refine ⟨id, rotx, hget, ?_, List.mem_singleton.mp ho⟩
        rw [ptrArrayGet_map, hget, Option.map_some, grRotxGstUpdateCallback, if_pos hwake]
      · cases ho
  · cases h

/-- A piece of a transaction that is woken up. -/
theorem mem_grWoken {gst : ℚ} {tx : GrTx c} {p : GrPiece c} (h : p ∈ grWoken s st gst tx) :
    ∃ o ∈ (grUpdateGst st gst).2, p ∈ grPieces (o.place s, o.event) tx := by
  rw [grWoken, Pi.list_sum_apply, List.map_map] at h
  generalize (grUpdateGst st gst).2 = outs at h
  induction outs with
  | nil => cases h
  | cons o outs ih =>
    rw [List.map_cons, List.sum_cons] at h
    rcases Multiset.mem_add.mp h with h | h
    · exact ⟨o, List.mem_cons_self, h⟩
    · obtain ⟨o', ho', hp⟩ := ih h
      exact ⟨o', List.mem_cons_of_mem _ ho', hp⟩

theorem mem_grPieces_rotx {x : (ServerId c ⊕ ClientId c) × GrEvent c} {id : ℕ} {p : GrPiece c}
    (h : p ∈ grPieces x (.rotx s id)) :
    ∃ request, x = (.inl s, .getSnapshotRequest request) ∧ request.requestId = id ∧
      p = .ready request := by
  unfold grPieces at h
  split at h
  case h_2 s' request =>
    obtain ⟨heq, hp⟩ := GrTx.mem_one.mp h
    cases heq
    exact ⟨request, rfl, rfl, Multiset.mem_singleton.mp hp⟩
  all_goals first | cases (GrTx.mem_one.mp h).1 | cases h

theorem mem_grPieces_client {x : (ServerId c ⊕ ClientId c) × GrEvent c} {k : ClientId c}
    {p : GrPiece c} (h : p ∈ grPieces x (.client k)) :
    ∃ s request, x = (.inl s, .rotxRequest request) ∧ request.client = k ∧
      p = .asked s request := by
  unfold grPieces at h
  split at h
  case h_1 s request =>
    obtain ⟨heq, hp⟩ := GrTx.mem_one.mp h
    cases heq
    exact ⟨s, request, rfl, rfl, Multiset.mem_singleton.mp hp⟩
  all_goals first | cases (GrTx.mem_one.mp h).1 | cases h

/-- A request for a snapshot that a handler sends is that of a transaction that does not wait. -/
theorem GrTxStep.ready {e : GrEvent c} {r : GrOutcome c} (hs : GrTxStep s st e r)
    (hst : GrFormed s st) {id : ℕ} {p : GrPiece c}
    (hp : p ∈ ((r.placed s).map grPieces).sum (.rotx s id)) :
    p ∈ grPieces (.inl s, e) (.rotx s id) ∨ ∃ rotx, GrReady r.state rotx ∧
      rotx.snapshotRequest.requestId = id ∧ p = .ready rotx.snapshotRequest := by
  have hwoken : ∀ {gst}, r.state.rotxStates = (grUpdateGst st gst).1.rotxStates →
      p ∈ grWoken s st gst (.rotx s id) → ∃ rotx, GrReady r.state rotx ∧
        rotx.snapshotRequest.requestId = id ∧ p = .ready rotx.snapshotRequest := by
    intro gst hrotx hp
    obtain ⟨o, ho, hp⟩ := mem_grWoken hp
    obtain ⟨rid, rotx, hget, hget', rfl⟩ := grUpdateGst_woken ho
    obtain ⟨request, heq, hid, rfl⟩ := mem_grPieces_rotx hp
    cases heq
    have hrid := (hst.rotx rid rotx hget).1
    exact ⟨{ rotx with waitingGst := false }, ⟨by rw [hrotx, hrid]; exact hget', rfl⟩, hid, rfl⟩
  cases hs with
  | pass gst hpieces hrotx =>
    rw [hpieces, Pi.add_apply] at hp
    exact (Multiset.mem_add.mp hp).imp_right (hwoken hrotx)
  | ask request he hpieces hrotx =>
    rw [hpieces] at hp
    split at hp
    · rename_i hle
      by_cases hid : GrTx.rotx s id = .rotx s (ptrArrayFree st.rotxStates)
      · cases hid
        rw [GrTx.one_self] at hp
        refine .inr ⟨request.state s (ptrArrayFree st.rotxStates) st.gst, ⟨?_, ?_⟩, rfl,
          Multiset.mem_singleton.mp hp⟩
        · rw [hrotx]
          exact (ptrArrayPut_get _ _ _).trans (if_pos rfl)
        · simp [GrGetRotxRequest.state, hle]
      · rw [GrTx.one_of_ne hid] at hp
        cases hp
    · cases hp
  | take request he hpieces =>
    rw [hpieces, GrTx.one_of_ne (by rintro ⟨⟩)] at hp
    cases hp
  | lock id' snapshot he _ hpieces hrotx =>
    rw [hpieces, Pi.add_apply, GrTx.one_of_ne (by rintro ⟨⟩), zero_add] at hp
    exact .inr (hwoken hrotx hp)
  | scatter id' snapshot he _ hpieces =>
    rw [hpieces, GrTx.one_of_ne (by rintro ⟨⟩)] at hp
    cases hp
  | receive slice snapshot he _ _ hpieces =>
    rw [hpieces] at hp
    cases hp
  | answer slice snapshot rotx he _ _ _ hpieces =>
    rw [hpieces] at hp
    cases hp

/-- A handler does nothing for the slots of other servers. -/
theorem GrTxStep.elsewhere {e : GrEvent c} {r : GrOutcome c} (hs : GrTxStep s st e r) {tx : GrTx c}
    (hclient : ∀ k, tx ≠ .client k) (hrotx : ∀ id, tx ≠ .rotx s id)
    (hsnapshot : ∀ id, tx ≠ .snapshot s id) :
    ((r.placed s).map grPieces).sum tx = grPieces (.inl s, e) tx := by
  cases hs with
  | pass gst hpieces => rw [hpieces, Pi.add_apply, grWoken_of_ne hrotx, add_zero]
  | ask request he hpieces =>
    rw [hpieces, he]
    refine Eq.trans ?_ (GrTx.one_of_ne (hclient _) _).symm
    split
    · exact GrTx.one_of_ne (hrotx _) _
    · rfl
  | take request he hpieces =>
    rw [hpieces, he]
    exact (GrTx.one_of_ne (hsnapshot _) _).trans (GrTx.one_of_ne (hrotx _) _).symm
  | lock id snapshot he _ hpieces =>
    rw [hpieces, he, Pi.add_apply, grWoken_of_ne hrotx, add_zero]
    exact (GrTx.one_of_ne (hsnapshot _) _).trans (GrTx.one_of_ne (hsnapshot _) _).symm
  | scatter id snapshot he _ hpieces =>
    rw [hpieces, he]
    exact (GrTx.one_of_ne (hsnapshot _) _).trans (GrTx.one_of_ne (hsnapshot _) _).symm
  | receive slice snapshot he _ _ hpieces =>
    rw [hpieces, (grSliceTaken_some s st he).1]
    exact (GrTx.one_of_ne (hsnapshot _) _).symm
  | answer slice snapshot rotx he _ _ _ hpieces =>
    rw [hpieces, (grSliceTaken_some s st he).1]
    exact (GrTx.one_of_ne (hsnapshot _) _).symm

end Ready

/-- **A request for a snapshot is that of a transaction that does not wait.** -/
theorem gr_ready {setup : Setup c (GrEvent c)} {Q : GrAct c → Prop} {M : GrMail c}
    {h : List (GrAct c)} (hr : Mail.Run (grProgram c) Q (grWorld setup).config.mail M h)
    (s : ServerId c) (id : ℕ) :
    ∀ p ∈ (M.events.map fun x => grPieces x (.rotx s id)).sum, ∃ rotx,
      GrReady (M.server s) rotx ∧ rotx.snapshotRequest.requestId = id ∧
        p = .ready rotx.snapshotRequest := by
  refine hr.account (fun x => grPieces x (.rotx s id))
    (fun _ pieces server => ∀ p ∈ pieces, ∃ rotx, GrReady (server s) rotx ∧
      rotx.snapshotRequest.requestId = id ∧ p = .ready rotx.snapshotRequest) ?_ ?_ ?_
  · intro M h s' t e r mail hrun hev hserve hready p hp
    have hst : GrFormed s' { M.server s' with now := t, clock := c.clock s' t } :=
      ((gr_formed hrun).1 s').of_eq rfl rfl rfl rfl
    have hstep := (grProcessEvent_work (grServerProcessEvent_some hserve)).txStep hst
    rw [← sum_placed_apply] at hp
    by_cases hs : s' = s
    · subst hs
      rw [Function.update_self]
      -- what was there before is still there
      have hkept : p ∈ grPieces (.inl s', e) (.rotx s' id) +
          (mail.map fun x => grPieces x (.rotx s' id)).sum → ∃ rotx, GrReady r.state rotx ∧
            rotx.snapshotRequest.requestId = id ∧ p = .ready rotx.snapshotRequest := by
        intro hp
        obtain ⟨rotx, hrotx, hid, rfl⟩ := hready p hp
        have hrotx₀ : GrReady { M.server s' with now := t, clock := c.clock s' t } rotx :=
          hrotx.of_eq rfl
        rcases hrotx₀.step hstep with hrotx' | ⟨slice, snapshot, -, hget, hrequest⟩
        · exact ⟨rotx, hrotx', hid, rfl⟩
        · rw [← Multiset.sum_cons, ← Multiset.map_cons (fun x => grPieces x (.rotx s' id)),
            ← hev] at hp
          obtain ⟨x, hx, hp⟩ := exists_of_mem_sum_map hp
          obtain ⟨request, rfl, hrid, -⟩ := mem_grPieces_rotx hp
          exact absurd (hrid.trans (hid.symm.trans hrequest.symm))
            ((gr_snapshot_rotx hrun hget).2.2 request hx)
      rcases Multiset.mem_add.mp hp with hp | hp
      · rcases hstep.ready hst hp with hp | hnew
        · exact hkept (Multiset.mem_add.mpr (.inl hp))
        · exact hnew
      · exact hkept (Multiset.mem_add.mpr (.inr hp))
    · rw [Function.update_of_ne (Ne.symm hs)]
      refine hready p ?_
      rwa [hstep.elsewhere (by rintro _ ⟨⟩) (by rintro _ ⟨⟩; exact hs rfl) (by rintro _ ⟨⟩)] at hp
  · intro M h k t decision e r mail hrun hev hclient hready p hp
    refine hready p (Multiset.mem_add.mpr (.inr ?_))
    rw [← sum_placed_apply] at hp
    rcases (grClientProcessEvent_pieces hclient).2 with ⟨hzero, -⟩ | ⟨request, _, -, hone, -⟩
    · rw [hzero, Pi.zero_apply, zero_add] at hp
      exact hp
    · rw [hone, GrTx.one_of_ne (by rintro ⟨⟩), zero_add] at hp
      exact hp
  · intro p hp
    rw [grPieces_start] at hp
    cases hp

end CCSim
