/-
# How a transaction is scattered and gathered (`grv`)

A transaction takes its slot and asks every partition that holds some of its keys for all of these
at once (`GrvScattered`).  The requests may wait until a clock catches up, and the answers come back
in any order.  For every slot, the keys that are under way are accounted for (`grvSlices`), and for
every client the request that was not opened yet (`grvAsking`): a handler call passes on what it
gets, opens a transaction, or receives a slice (`GrvTxStep`), and keeps both accounts
(`GrvAccount`, `GrvPhase`).
-/
import CCSim.Grv.Requests
import Mathlib.Algebra.BigOperators.Fin

namespace CCSim

variable {c : Cluster}

/-! ## 1. What is under way -/

/-- The transaction that an event asks for, and where. -/
def grvAsking : (ServerId c ⊕ ClientId c) × GrvEvent c →
    ClientId c → Multiset (ServerId c × GrvRotxRequest c)
  | (.inl s, .rotxRequest request) => Pi.single request.client {(s, request)}
  | (.inl s, .rotxRequestLocked request) => Pi.single request.client {(s, request)}
  | (.inl s, .rotxRequestUnlocked request) => Pi.single request.client {(s, request)}
  | _ => 0

/-- The keys that an event is to read for a slot, or has read, with their places. -/
def grvSlices : (ServerId c ⊕ ClientId c) × GrvEvent c → ServerId c × ℕ → Multiset (ℕ × Key)
  | (_, .sliceRequest request) => Pi.single (request.fromLpid, request.rotxId) request.keys
  | (_, .sliceRequestLocked request) => Pi.single (request.fromLpid, request.rotxId) request.keys
  | (_, .sliceRequestUnlocked request) => Pi.single (request.fromLpid, request.rotxId) request.keys
  | (.inl s, .sliceResponse slice) =>
    Pi.single (s, slice.rotxId) (slice.values.map fun v => (v.keyId, v.key))
  | _ => 0

theorem GrvEvent.Other.not_asking {e : GrvEvent c} (h : e.Other) (p : ServerId c ⊕ ClientId c) :
    grvAsking (p, e) = 0 := by
  cases e <;> first | exact h.elim | (cases p <;> rfl)

theorem GrvEvent.Other.not_slices {e : GrvEvent c} (h : e.Other) (p : ServerId c ⊕ ClientId c) :
    grvSlices (p, e) = 0 := by
  cases e <;> first | exact h.elim | (cases p <;> rfl)

/-! ## 2. What a history says of transactions -/

/-- The transactions that a client asks for in a handler call. -/
def grvRotxAsks (k : ClientId c) : GrvAct c → List (GrvRotxRequest c)
  | .client k' _ _ _ r => if k' = k then r.2.filterMap fun
      | .toServer _ (.rotxRequest request) => some request
      | _ => none
    else []
  | .server _ _ _ _ _ => []

/-- The answers to transactions among what a server sends to a client. -/
def grvRotxAnswersTo (k : ClientId c) (outs : List (GrvOut c)) : List (GrvRotxResponse c) :=
  outs.filterMap fun
    | .toClient k' (.rotxResponse response) => if k' = k then some response else none
    | _ => none

/-- The answers to transactions that a client is sent in a handler call. -/
def grvRotxAnswers (k : ClientId c) : GrvAct c → List (GrvRotxResponse c)
  | .server _ _ _ _ r => grvRotxAnswersTo k r.outs
  | .client _ _ _ _ _ => []

/-- The transaction that a client has asked for and was not answered yet. -/
def grvAsked (k : ClientId c) : List (GrvAct c) → Option (GrvRotxRequest c) :=
  pending (fun a => (grvRotxAsks k a).head?) fun a => !(grvRotxAnswers k a).isEmpty

/-- The transaction that takes its slot in a handler call; one that waits for the lock comes
again. -/
def grvOpened (r : GrvOutcome c) : GrvEvent c → Option (GrvRotxRequest c)
  | .rotxRequest request => if r.cont.event?.isNone then some request else none
  | .rotxRequestUnlocked request => some request
  | _ => none

/-- The transaction of a client that takes its slot in a handler call. -/
def grvOpens (k : ClientId c) : GrvAct c → Option (GrvRotxRequest c)
  | .server _ _ e _ r => (grvOpened r e).filter fun request => decide (request.client = k)
  | .client _ _ _ _ _ => none

/-- The transactions of a client that took a slot since it was answered the last one, the latest
first. -/
def grvOpenedSince (k : ClientId c) : List (GrvAct c) → List (GrvRotxRequest c) :=
  gathered (fun a => !(grvRotxAnswers k a).isEmpty) (grvOpens k)

/-- The request for a slice that is sent to a server. -/
def grvSliceRequestTo (s : ServerId c) : GrvOut c → Option (GrvSliceRequest c)
  | .toServer s' (.sliceRequest request) => if s' = s then some request else none
  | _ => none

/-- The requests for slices that are sent to a server. -/
def grvSliceRequestsTo (s : ServerId c) (outs : List (GrvOut c)) : List (GrvSliceRequest c) :=
  outs.filterMap (grvSliceRequestTo s)

/-- The slice that an event brings. -/
def GrvEvent.slice? : GrvEvent c → Option (GrvSliceResponse c)
  | .sliceResponse slice => some slice
  | _ => none

/-- The slices that the transaction in a slot has received since it was opened, the latest
first. -/
def grvGathered (s : ServerId c) (id : ℕ) : List (GrvAct c) → List (GrvSliceResponse c) :=
  gathered
    (fun
      | .server s' _ e st r =>
        decide (s' = s ∧ (grvOpened r e).isSome ∧ ptrArrayFree st.rotxStates = id)
      | .client _ _ _ _ _ => false)
    fun
      | .server s' _ e _ _ =>
        if s' = s then e.slice?.filter fun slice => decide (slice.rotxId = id) else none
      | .client _ _ _ _ _ => none

theorem grvRotxAnswersTo_eq_nil {k : ClientId c} {outs : List (GrvOut c)}
    (h : ∀ o ∈ outs, ∀ response, o.event ≠ .rotxResponse response) :
    grvRotxAnswersTo k outs = [] := by
  refine List.filterMap_eq_nil_iff.mpr fun o ho => ?_
  split
  · exact absurd rfl (h _ ho _)
  · rfl

theorem grvSliceRequestsTo_eq_nil {s : ServerId c} {outs : List (GrvOut c)}
    (h : ∀ s' request, .toServer s' (.sliceRequest request) ∉ outs) :
    grvSliceRequestsTo s outs = [] := by
  refine List.filterMap_eq_nil_iff.mpr fun o ho => ?_
  unfold grvSliceRequestTo
  split
  · exact absurd ho (h _ _)
  · rfl

/-! ## 3. The keys of the partitions -/

/-- Sorting by a function and putting the parts together again loses nothing. -/
theorem sum_filter_eq {α ι : Type} [Fintype ι] [DecidableEq ι] (f : α → ι) (l : List α) :
    ∑ i, ((l.filter fun x => decide (f x = i) : List α) : Multiset α) = (l : Multiset α) := by
  induction l with
  | nil => simp
  | cons x l ih =>
    have hone : ∀ i, (((x :: l).filter fun x => decide (f x = i) : List α) : Multiset α) =
        (if f x = i then {x} else 0) + ((l.filter fun x => decide (f x = i) : List α) :
          Multiset α) := by
      intro i
      by_cases hx : f x = i
      · simp [hx]
      · simp [hx]
    rw [Finset.sum_congr rfl fun i _ => hone i, Finset.sum_add_distrib, ih, Finset.sum_ite_eq,
      if_pos (Finset.mem_univ _), Multiset.singleton_add, Multiset.cons_coe]

/-- The keys that all partitions hold are the keys of the transaction, each in its place. -/
theorem sum_grvSliceKeys (s : ServerId c) (keys : List Key) :
    ∑ p, (grvSliceKeys s keys p : Multiset (ℕ × Key)) =
      ((keys.mapIdx fun i key => (i, key) : List (ℕ × Key)) : Multiset (ℕ × Key)) := by
  rw [← sum_filter_eq fun x : ℕ × Key => partitionForKey c x.2]
  refine Finset.sum_congr rfl fun p _ => ?_
  simp [grvSliceKeys, lpidForKey]

/-- A partition that holds no key has nothing to read. -/
theorem grvSliceKeys_eq_nil {s : ServerId c} {keys : List Key} {p : Partition c} :
    grvSliceKeys s keys p = [] ↔ ∀ key ∈ keys, lpidForKey s key ≠ (s.1, p) := by
  rw [grvSliceKeys, List.filter_eq_nil_iff]
  constructor
  · intro h key hkey
    obtain ⟨i, hi, rfl⟩ := List.getElem_of_mem hkey
    exact fun heq => h (i, keys[i]) (List.mem_mapIdx.mpr ⟨i, hi, rfl⟩) (by simpa using heq)
  · intro h x hx
    obtain ⟨i, hi, rfl⟩ := List.mem_mapIdx.mp hx
    simpa using h _ (List.getElem_mem hi)

/-- What the requests for slices add up to. -/
theorem sum_grvSliceRequests_slices (s : ServerId c) (st : GrvServerState c)
    (request : GrvRotxRequest c) :
    ((grvSliceRequests s st request).map fun o => grvSlices (o.place s, o.event)).sum =
      Pi.single (s, ptrArrayFree st.rotxStates)
        ((request.keys.mapIdx fun i key => (i, key) : List (ℕ × Key)) : Multiset (ℕ × Key)) := by
  rw [← sum_grvSliceKeys s request.keys]
  have hlist : ∀ l : List (Partition c), ((l.filterMap fun p =>
      if grvSliceKeys s request.keys p = [] then none
      else some (.toServer (s.1, p) (.sliceRequest (grvSliceRequest s st request p)) : GrvOut c)).map
        fun o => grvSlices (o.place s, o.event)).sum =
      Pi.single (s, ptrArrayFree st.rotxStates)
        ((l.map fun p => (grvSliceKeys s request.keys p : Multiset (ℕ × Key))).sum) := by
    intro l
    induction l with
    | nil => simp
    | cons p l ih =>
      rw [List.map_cons, List.sum_cons, Pi.single_add, ← ih]
      by_cases hp : grvSliceKeys s request.keys p = []
      · rw [List.filterMap_cons_none (by rw [if_pos hp])]
        simp [hp]
      · rw [List.filterMap_cons_some (by rw [if_neg hp]), List.map_cons, List.sum_cons]
        rfl
  rw [grvSliceRequests, hlist, Fin.sum_univ_def]

/-- The keys that are asked for, with their places. -/
def grvKeysAsked (outs : List (GrvOut c)) : List (ℕ × Key) :=
  outs.flatMap fun
    | .toServer _ (.sliceRequest request) => request.keys
    | _ => []

/-- **A transaction is scattered**: every server that holds one of its keys is asked once, for all
the keys that it holds, and no other server is asked; together these are the keys of the transaction,
each in its place. -/
structure GrvScattered (s : ServerId c) (request : GrvRotxRequest c) (outs : List (GrvOut c)) :
    Prop where
  count : ∀ s', (grvSliceRequestsTo s' outs).length =
    if ∃ key ∈ request.keys, lpidForKey s key = s' then 1 else 0
  held : ∀ s', ∀ slice ∈ grvSliceRequestsTo s' outs, slice.keys =
    (request.keys.mapIdx fun i key => (i, key)).filter fun x => decide (lpidForKey s x.2 = s')
  places : (grvKeysAsked outs).Perm (request.keys.mapIdx fun i key => (i, key))

theorem filterMap_ite_eq {α β : Type} [DecidableEq α] (q : α) (f : α → Option β) {l : List α}
    (hl : l.Nodup) : l.filterMap (fun p => if p = q then f p else none) =
      if q ∈ l then (f q).toList else [] := by
  induction l with
  | nil => rfl
  | cons p l ih =>
    rw [List.nodup_cons] at hl
    have ih := ih hl.2
    by_cases hp : p = q
    · subst hp
      rw [if_neg hl.1] at ih
      rw [List.filterMap_cons, if_pos rfl, ih, if_pos List.mem_cons_self]
      cases f p <;> rfl
    · rw [List.filterMap_cons, if_neg hp]
      exact ih.trans (if_congr (by simp [Ne.symm hp]) rfl rfl)

/-- What a server is asked for. -/
theorem grvSliceRequestsTo_scatter (s s' : ServerId c) (st : GrvServerState c)
    (request : GrvRotxRequest c) : grvSliceRequestsTo s' (grvSliceRequests s st request) =
      if s'.1 = s.1 ∧ grvSliceKeys s request.keys s'.2 ≠ [] then [grvSliceRequest s st request s'.2]
      else [] := by
  have hone : ∀ p ∈ List.finRange c.numPartitions, ((if grvSliceKeys s request.keys p = [] then none
      else some (.toServer (s.1, p) (.sliceRequest (grvSliceRequest s st request p)) : GrvOut c)).bind
        (grvSliceRequestTo s')) = if p = s'.2 then
      (if s'.1 = s.1 ∧ grvSliceKeys s request.keys p ≠ [] then some (grvSliceRequest s st request p)
        else none) else none := by
    intro p _
    by_cases hkeys : grvSliceKeys s request.keys p = []
    · simp [hkeys]
    · by_cases hs : s'.1 = s.1
      · by_cases hp : p = s'.2
        · subst hp
          simp [grvSliceRequestTo, hkeys, hs, Prod.ext_iff]
        · simp [grvSliceRequestTo, hkeys, hp, Prod.ext_iff]
      · simp [grvSliceRequestTo, hkeys, hs, Prod.ext_iff, Ne.symm hs]
  rw [grvSliceRequestsTo, grvSliceRequests, List.filterMap_filterMap, List.filterMap_congr hone,
    filterMap_ite_eq _ _ (List.nodup_finRange _), if_pos (List.mem_finRange _)]
  split <;> rfl

/-- **The handler that opens a transaction scatters it.** -/
theorem grvSliceRequests_scattered (s : ServerId c) (st : GrvServerState c)
    (request : GrvRotxRequest c) : GrvScattered s request (grvSliceRequests s st request) := by
  refine ⟨fun s' => ?_, fun s' slice hslice => ?_, ?_⟩
  · have hheld : (s'.1 = s.1 ∧ grvSliceKeys s request.keys s'.2 ≠ []) ↔
        ∃ key ∈ request.keys, lpidForKey s key = s' := by
      rw [Ne, grvSliceKeys_eq_nil]
      push Not
      constructor
      · rintro ⟨hs, key, hkey, howner⟩
        exact ⟨key, hkey, howner.trans (Prod.ext hs.symm rfl)⟩
      · rintro ⟨key, hkey, rfl⟩
        exact ⟨rfl, key, hkey, rfl⟩
    rw [grvSliceRequestsTo_scatter, ← if_congr hheld rfl rfl]
    split <;> rfl
  · rw [grvSliceRequestsTo_scatter] at hslice
    split at hslice
    · rename_i hs
      obtain rfl := List.mem_singleton.mp hslice
      have hs' : s' = (s.1, s'.2) := Prod.ext hs.1 rfl
      rw [hs']
      rfl
    · cases hslice
  · have hkeys : ∀ l : List (Partition c), grvKeysAsked (l.filterMap fun p =>
        if grvSliceKeys s request.keys p = [] then none
        else some (.toServer (s.1, p) (.sliceRequest (grvSliceRequest s st request p)))) =
          l.flatMap fun p => grvSliceKeys s request.keys p := by
      intro l
      induction l with
      | nil => rfl
      | cons p l ih =>
        rw [List.flatMap_cons, ← ih]
        by_cases hp : grvSliceKeys s request.keys p = []
        · rw [List.filterMap_cons_none (by rw [if_pos hp]), hp, List.nil_append]
        · rw [List.filterMap_cons_some (by rw [if_neg hp])]
          rfl
    refine Multiset.coe_eq_coe.mp ?_
    rw [grvSliceRequests, hkeys, ← sum_grvSliceKeys s request.keys, Fin.sum_univ_def,
      ← Multiset.coe_bind]
    rfl

/-! ## 4. One look at every handler -/

/-- What a handler call does for transactions: it passes on what it gets, it opens a transaction, or
it receives a slice, which may be the last one. -/
inductive GrvTxStep (s : ServerId c) (st : GrvServerState c) (e : GrvEvent c) (r : GrvOutcome c) :
    Prop
  | pass (hasking : ((r.placed s).map grvAsking).sum = grvAsking (.inl s, e))
      (hslices : ((r.placed s).map grvSlices).sum = grvSlices (.inl s, e))
      (hrotx : r.state.rotxStates = st.rotxStates)
      (hanswers : ∀ o ∈ r.outs, ∀ response, o.event ≠ .rotxResponse response)
      (hrequests : ∀ s' request, .toServer s' (.sliceRequest request) ∉ r.outs)
      (hopened : grvOpened r e = none) (hslice : e.slice? = none)
  | scatter (request : GrvRotxRequest c)
      (he : e = .rotxRequest request ∨ e = .rotxRequestUnlocked request)
      (houts : r.outs = grvSliceRequests s st request) (hcont : r.cont = .done)
      (hrotx : r.state.rotxStates = ptrArrayPut request.state st.rotxStates)
  | receive (slice : GrvSliceResponse c) (rotx : GrvRotxState c) (he : e = .sliceResponse slice)
      (hget : ptrArrayGet st.rotxStates slice.rotxId = some rotx)
      (hmore : (grvReceiveSlice rotx slice).receivedValues ≠
        (grvReceiveSlice rotx slice).values.length)
      (houts : r.outs = []) (hcont : r.cont = .done)
      (hrotx : r.state.rotxStates =
        ptrArraySet st.rotxStates slice.rotxId (some (grvReceiveSlice rotx slice)))
  | answer (slice : GrvSliceResponse c) (rotx : GrvRotxState c) (he : e = .sliceResponse slice)
      (hget : ptrArrayGet st.rotxStates slice.rotxId = some rotx)
      (hlast : (grvReceiveSlice rotx slice).receivedValues =
        (grvReceiveSlice rotx slice).values.length)
      (houts : r.outs =
        [.toClient rotx.client (.rotxResponse (grvRotxAnswer (grvReceiveSlice rotx slice)))])
      (hcont : r.cont = .done)
      (hrotx : r.state.rotxStates = ptrArraySet st.rotxStates slice.rotxId none)

/-- A list of outputs with nothing for transactions. -/
theorem sum_outs_eq_zero {B : Type} [AddCommMonoid B]
    (w : (ServerId c ⊕ ClientId c) × GrvEvent c → B) {s : ServerId c} {outs : List (GrvOut c)}
    (h : ∀ o ∈ outs, w (o.place s, o.event) = 0) :
    (outs.map fun o => w (o.place s, o.event)).sum = 0 := by
  refine List.sum_eq_zero fun y hy => ?_
  obtain ⟨o, ho, rfl⟩ := List.mem_map.mp hy
  exact h o ho

/-- **One look at every handler.** -/
theorem GrvWork.txStep {s : ServerId c} {st : GrvServerState c} {e : GrvEvent c} {r : GrvOutcome c}
    (hw : GrvWork s st e r) : GrvTxStep s st e r := by
  -- what is sent back to a client, directly or by its proxy
  have hsend : ∀ (lpid : Lpid c) {e : GrvEvent c}, (∀ p, grvAsking (p, e) = 0) →
      (∀ p, grvSlices (p, e) = 0) → grvAsking ((grvSend lpid e).place s, (grvSend lpid e).event) = 0 ∧
        grvSlices ((grvSend lpid e).place s, (grvSend lpid e).event) = 0 := by
    intro lpid e hasking hslices
    cases lpid <;> exact ⟨hasking _, hslices _⟩
  have hquiet : ∀ {lpid : Lpid c} {e : GrvEvent c}, (∀ response, e ≠ .rotxResponse response) →
      ∀ response, (grvSend lpid e).event ≠ .rotxResponse response := by
    intro lpid e he response
    cases lpid <;> exact he response
  have hother : ∀ {lpid : Lpid c} {e : GrvEvent c}, (∀ request, e ≠ .sliceRequest request) →
      ∀ s' request, .toServer s' (.sliceRequest request) ≠ grvSend lpid e := by
    intro lpid e he s' request heq
    cases lpid with
    | server s'' =>
      cases heq
      exact he request rfl
    | client k => cases heq
  cases hw with
  | other he hput hrotx hnew =>
    have hasking : ((r.placed s).map grvAsking).sum = 0 := by
      refine List.sum_eq_zero fun y hy => ?_
      obtain ⟨x, hx, rfl⟩ := List.mem_map.mp hy
      exact (hnew x hx).not_asking x.1
    have hslices : ((r.placed s).map grvSlices).sum = 0 := by
      refine List.sum_eq_zero fun y hy => ?_
      obtain ⟨x, hx, rfl⟩ := List.mem_map.mp hy
      exact (hnew x hx).not_slices x.1
    have hout : ∀ o ∈ r.outs, o.event.Other := fun o ho =>
      hnew _ (Outcome.mem_placed.mpr (.inl ⟨o, ho, rfl⟩))
    refine .pass (hasking.trans (he.not_asking _).symm) (hslices.trans (he.not_slices _).symm) hrotx
      (fun o ho response heq => ?_) (fun s' request hmem => hout _ hmem) ?_ ?_
    · exact (heq ▸ hout o ho : (GrvEvent.rotxResponse response).Other)
    · cases e <;> first | exact he.elim | rfl
    · cases e <;> first | exact he.elim | rfl
  | @getForward request cont hproxy hcont =>
    have hevent : ∀ {B : Type} [AddCommMonoid B]
        (w : (ServerId c ⊕ ClientId c) × GrvEvent c → B), (∀ e : GrvEvent c, e.Other →
          ∀ p, w (p, e) = 0) → cont.event?.elim 0 (fun e => w (.inl s, e)) = 0 := by
      intro B _ w hw
      cases hce : cont.event? with
      | none => rfl
      | some e => exact hw e (hcont e hce) _
    refine .pass ?_ ?_ rfl (List.forall_mem_singleton.mpr (by rintro _ ⟨⟩))
      (fun s' request hmem => by cases List.mem_singleton.mp hmem) rfl rfl
    · rw [Outcome.sum_placed, hevent grvAsking fun e he => he.not_asking]
      rfl
    · rw [Outcome.sum_placed, hevent grvSlices fun e he => he.not_slices]
      rfl
  | getLock => exact .pass rfl rfl rfl (List.forall_mem_nil _) (fun _ _ => List.not_mem_nil) rfl rfl
  | getLocked => exact .pass rfl rfl rfl (List.forall_mem_nil _) (fun _ _ => List.not_mem_nil) rfl rfl
  | @getServe _ request he =>
    obtain ⟨hasking, hslices⟩ := hsend (replyTo request.client request.proxy)
      (e := .getResponse (grvGetAnswer s st request)) (by rintro (_ | _) <;> rfl)
      (by rintro (_ | _) <;> rfl)
    refine .pass ?_ ?_ rfl (List.forall_mem_singleton.mpr (hquiet (by rintro _ ⟨⟩)))
      (fun s' request hmem => hother (by rintro _ ⟨⟩) s' request (List.mem_singleton.mp hmem)) ?_ ?_
    · rw [Outcome.sum_placed, sum_outs_eq_zero grvAsking (List.forall_mem_singleton.mpr hasking)]
      rcases he with rfl | rfl <;> rfl
    · rw [Outcome.sum_placed, sum_outs_eq_zero grvSlices (List.forall_mem_singleton.mpr hslices)]
      rcases he with rfl | rfl <;> rfl
    · rcases he with rfl | rfl <;> rfl
    · rcases he with rfl | rfl <;> rfl
  | getResponse =>
    exact .pass rfl rfl rfl (List.forall_mem_singleton.mpr (by rintro _ ⟨⟩))
      (fun s' request hmem => by cases List.mem_singleton.mp hmem) rfl rfl
  | putForward =>
    exact .pass rfl rfl rfl (List.forall_mem_singleton.mpr (by rintro _ ⟨⟩))
      (fun s' request hmem => by cases List.mem_singleton.mp hmem) rfl rfl
  | putDefer =>
    exact .pass rfl rfl rfl (List.forall_mem_singleton.mpr (by rintro _ ⟨⟩))
      (fun s' request hmem => by cases List.mem_singleton.mp hmem) rfl rfl
  | putOpen => exact .pass rfl rfl rfl (List.forall_mem_nil _) (fun _ _ => List.not_mem_nil) rfl rfl
  | putLocked =>
    exact .pass rfl rfl rfl (List.forall_mem_nil _) (fun _ _ => List.not_mem_nil) rfl rfl
  | @putUnlocked id putState stamp =>
    obtain ⟨hasking, hslices⟩ := hsend putState.destination
      (e := .putResponse (grvPutAnswer s putState stamp)) (by rintro (_ | _) <;> rfl)
      (by rintro (_ | _) <;> rfl)
    have hupdates : ∀ o ∈ (if stamp.discarded then []
        else grvReplicateValue s (grvPutUpdate s putState stamp)), ∃ s',
          o = .toServer s' (.replicaUpdate (grvPutUpdate s putState stamp)) := by
      intro o ho
      split at ho
      · cases ho
      · obtain ⟨s', -, rfl⟩ := List.mem_map.mp ho
        exact ⟨s', rfl⟩
    refine .pass ?_ ?_ rfl
      (List.forall_mem_cons.mpr ⟨hquiet (by rintro _ ⟨⟩), fun o ho => ?_⟩)
      (fun s' request hmem => ?_) rfl rfl
    · rw [Outcome.sum_placed, sum_outs_eq_zero grvAsking
        (List.forall_mem_cons.mpr ⟨hasking, fun o ho => by
          obtain ⟨s', rfl⟩ := hupdates o ho
          rfl⟩)]
      rfl
    · rw [Outcome.sum_placed, sum_outs_eq_zero grvSlices
        (List.forall_mem_cons.mpr ⟨hslices, fun o ho => by
          obtain ⟨s', rfl⟩ := hupdates o ho
          rfl⟩)]
      rfl
    · obtain ⟨s', rfl⟩ := hupdates o ho
      rintro _ ⟨⟩
    · rcases List.mem_cons.mp hmem with heq | hmem
      · exact hother (by rintro _ ⟨⟩) s' request heq
      · obtain ⟨s'', heq⟩ := hupdates _ hmem
        cases heq
  | putResponse =>
    exact .pass rfl rfl rfl (List.forall_mem_singleton.mpr (by rintro _ ⟨⟩))
      (fun s' request hmem => by cases List.mem_singleton.mp hmem) rfl rfl
  | rotxLock =>
    exact .pass (by rw [Outcome.sum_placed]; exact zero_add _) rfl rfl (List.forall_mem_nil _)
      (fun _ _ => List.not_mem_nil) rfl rfl
  | rotxLocked =>
    exact .pass (by rw [Outcome.sum_placed]; exact zero_add _) rfl rfl (List.forall_mem_nil _)
      (fun _ _ => List.not_mem_nil) rfl rfl
  | rotxOpen he => exact .scatter _ he rfl rfl rfl
  | sliceDefer =>
    exact .pass rfl (by rw [Outcome.sum_placed]; exact (add_zero _).trans (add_zero _)) rfl
      (List.forall_mem_singleton.mpr (by rintro _ ⟨⟩))
      (fun s' request hmem => by cases List.mem_singleton.mp hmem) rfl rfl
  | sliceLock =>
    exact .pass rfl (by rw [Outcome.sum_placed]; exact zero_add _) rfl (List.forall_mem_nil _)
      (fun _ _ => List.not_mem_nil) rfl rfl
  | sliceLocked =>
    exact .pass rfl (by rw [Outcome.sum_placed]; exact zero_add _) rfl (List.forall_mem_nil _)
      (fun _ _ => List.not_mem_nil) rfl rfl
  | @sliceServe _ request noTime he =>
    refine .pass ?_ ?_ rfl (List.forall_mem_singleton.mpr (by rintro _ ⟨⟩))
      (fun s' request hmem => by cases List.mem_singleton.mp hmem) ?_ ?_
    · rcases he with rfl | rfl <;> rfl
    · have hown : grvSlices (.inl s, e) =
          Pi.single (request.fromLpid, request.rotxId) (request.keys : Multiset (ℕ × Key)) := by
        rcases he with rfl | rfl <;> rfl
      have hread : ((grvSliceAnswer s st request).values.map fun v => (v.keyId, v.key)) =
          request.keys := by
        simp [grvSliceAnswer, grvSliceValue, Function.comp_def]
      rw [Outcome.sum_placed, hown, ← hread]
      exact (add_zero _).trans (add_zero _)
    · rcases he with rfl | rfl <;> rfl
    · rcases he with rfl | rfl <;> rfl
  | receive hget hmore => exact .receive _ _ rfl hget hmore rfl rfl rfl
  | receiveLast hget hlast => exact .answer _ _ rfl hget hlast rfl rfl rfl

/-- A handler call that opens a transaction. -/
theorem GrvTxStep.opened_scatter {r : GrvOutcome c} {e : GrvEvent c} {request : GrvRotxRequest c}
    (he : e = .rotxRequest request ∨ e = .rotxRequestUnlocked request) (hcont : r.cont = .done) :
    grvOpened r e = some request := by
  rcases he with rfl | rfl
  · simp [grvOpened, hcont, Cont.event?]
  · rfl

/-- What a transaction that is opened leaves behind is asked for nobody. -/
theorem sum_grvSliceRequests_asking (s : ServerId c) (st : GrvServerState c)
    (request : GrvRotxRequest c) :
    ((grvSliceRequests s st request).map fun o => grvAsking (o.place s, o.event)).sum = 0 := by
  refine sum_outs_eq_zero grvAsking fun o ho => ?_
  obtain ⟨p, -, ho⟩ := List.mem_filterMap.mp ho
  split at ho
  · cases ho
  · cases ho
    rfl

theorem grvSliceRequests_not_answer (s : ServerId c) (st : GrvServerState c)
    (request : GrvRotxRequest c) :
    ∀ o ∈ grvSliceRequests s st request, ∀ response, o.event ≠ .rotxResponse response := by
  intro o ho response
  obtain ⟨p, -, ho⟩ := List.mem_filterMap.mp ho
  split at ho
  · cases ho
  · cases ho
    rintro ⟨⟩

/-! ## 5. The transaction of a client -/

@[simp]
theorem grvReceiveSlice_keys (rotx : GrvRotxState c) (slice : GrvSliceResponse c) :
    (grvReceiveSlice rotx slice).keys = rotx.keys := by
  have hfold : ∀ (values : List (GrvSliceValue c)) (rotx : GrvRotxState c),
      (values.foldl grvReceiveValue rotx).keys = rotx.keys := by
    intro values
    induction values with
    | nil => exact fun _ => rfl
    | cons v values ih => exact fun rotx => ih (grvReceiveValue rotx v)
  exact hfold slice.values rotx

/-- No slot of the server is taken by a transaction of the client. -/
def GrvFreeOf (k : ClientId c) (st : GrvServerState c) : Prop :=
  ∀ id rotx, ptrArrayGet st.rotxStates id = some rotx → rotx.client ≠ k

/-- Where the transaction of a client is that was not answered yet, and what was opened for the
client: it was sent, or has a slot. -/
inductive GrvPending (k : ClientId c) (asking : Multiset (ServerId c × GrvRotxRequest c))
    (st : GrvServerState c) : Option (GrvRotxRequest c) → List (GrvRotxRequest c) → Prop
  | idle (hasking : asking = 0) (hfree : GrvFreeOf k st) : GrvPending k asking st none []
  | sent {request : GrvRotxRequest c} (hclient : request.client = k)
      (hasking : asking = {(k.server, request)}) (hfree : GrvFreeOf k st) :
      GrvPending k asking st (some request) []
  | held {request : GrvRotxRequest c} {id : ℕ} {rotx : GrvRotxState c}
      (hclient : request.client = k) (hasking : asking = 0)
      (hget : ptrArrayGet st.rotxStates id = some rotx) (hrotx : rotx.client = k)
      (hkeys : rotx.keys = request.keys)
      (honly : ∀ id' rotx', ptrArrayGet st.rotxStates id' = some rotx' → rotx'.client = k →
        id' = id) : GrvPending k asking st (some request) [request]

/-- The account of a client: its transaction is at its server, where the history says, and it is
opened once. -/
structure GrvAccount (k : ClientId c) (h : List (GrvAct c))
    (asking : Multiset (ServerId c × GrvRotxRequest c)) (server : ServerId c → GrvServerState c) :
    Prop where
  elsewhere : ∀ s, s ≠ k.server → GrvFreeOf k (server s)
  pending : GrvPending k asking (server k.server) (grvAsked k h) (grvOpenedSince k h)

/-- The slots of a client's transactions are for the same keys. -/
structure GrvSameSlots (k : ClientId c) (st st' : GrvServerState c) : Prop where
  back : ∀ id rotx', ptrArrayGet st'.rotxStates id = some rotx' → rotx'.client = k →
    ∃ rotx, ptrArrayGet st.rotxStates id = some rotx ∧ rotx.client = k
  forth : ∀ id rotx, ptrArrayGet st.rotxStates id = some rotx → rotx.client = k →
    ∃ rotx', ptrArrayGet st'.rotxStates id = some rotx' ∧ rotx'.client = k ∧ rotx'.keys = rotx.keys

section Slots

variable {k : ClientId c} {st st' : GrvServerState c}
  {asking : Multiset (ServerId c × GrvRotxRequest c)} {asked : Option (GrvRotxRequest c)}
  {opened : List (GrvRotxRequest c)}

theorem GrvFreeOf.same (h : GrvFreeOf k st) (hs : GrvSameSlots k st st') : GrvFreeOf k st' := by
  intro id rotx' hget hk
  obtain ⟨rotx, hrotx, hk⟩ := hs.back id rotx' hget hk
  exact h id rotx hrotx hk

theorem GrvPending.same (h : GrvPending k asking st asked opened) (hs : GrvSameSlots k st st') :
    GrvPending k asking st' asked opened := by
  cases h with
  | idle hasking hfree => exact .idle hasking (hfree.same hs)
  | sent hclient hasking hfree => exact .sent hclient hasking (hfree.same hs)
  | @held request id rotx hclient hasking hget hrotx hkeys honly =>
    obtain ⟨rotx', hget', hrotx', hkeys'⟩ := hs.forth id rotx hget hrotx
    refine .held hclient hasking hget' hrotx' (hkeys'.trans hkeys) fun id' rotx'' hget'' hk => ?_
    obtain ⟨rotx₀, hrotx₀, hk₀⟩ := hs.back id' rotx'' hget'' hk
    exact honly id' rotx₀ hrotx₀ hk₀

theorem GrvSameSlots.of_eq (h : st'.rotxStates = st.rotxStates) : GrvSameSlots k st st' where
  back _ rotx' hget hk := ⟨rotx', h ▸ hget, hk⟩
  forth _ rotx hget hk := ⟨rotx, by rw [h]; exact hget, hk, rfl⟩

/-- A slot is taken for another client. -/
theorem GrvSameSlots.of_put {rotx₀ : GrvRotxState c}
    (h : st'.rotxStates = ptrArrayPut rotx₀ st.rotxStates) (hk : rotx₀.client ≠ k) :
    GrvSameSlots k st st' where
  back id rotx' hget hclient := by
    rw [h, ptrArrayPut_get] at hget
    split at hget
    · cases hget
      exact absurd hclient hk
    · exact ⟨rotx', hget, hclient⟩
  forth id rotx hget hclient := by
    have hne : id ≠ ptrArrayFree st.rotxStates := by
      rintro rfl
      rw [ptrArrayFree_get] at hget
      cases hget
    exact ⟨rotx, by rw [h, ptrArrayPut_get, if_neg hne]; exact hget, hclient, rfl⟩

/-- A slot receives a slice. -/
theorem GrvSameSlots.of_receive {id₀ : ℕ} {rotx₀ : GrvRotxState c} {slice : GrvSliceResponse c}
    (h : st'.rotxStates = ptrArraySet st.rotxStates id₀ (some (grvReceiveSlice rotx₀ slice)))
    (hget₀ : ptrArrayGet st.rotxStates id₀ = some rotx₀) : GrvSameSlots k st st' where
  back id rotx' hget hclient := by
    rw [h, ptrArraySet_get hget₀] at hget
    split at hget
    · rename_i hid
      cases hget
      rw [grvReceiveSlice_client] at hclient
      exact ⟨rotx₀, hid ▸ hget₀, hclient⟩
    · exact ⟨rotx', hget, hclient⟩
  forth id rotx hget hclient := by
    rw [h, ptrArraySet_get hget₀]
    split
    · rename_i hid
      subst hid
      cases hget₀.symm.trans hget
      exact ⟨_, rfl, by rw [grvReceiveSlice_client, hclient], grvReceiveSlice_keys _ _⟩
    · exact ⟨rotx, hget, hclient, rfl⟩

/-- A slot of another client is freed. -/
theorem GrvSameSlots.of_free {id₀ : ℕ} {rotx₀ : GrvRotxState c}
    (h : st'.rotxStates = ptrArraySet st.rotxStates id₀ none)
    (hget₀ : ptrArrayGet st.rotxStates id₀ = some rotx₀) (hk : rotx₀.client ≠ k) :
    GrvSameSlots k st st' where
  back id rotx' hget hclient := by
    rw [h, ptrArraySet_get hget₀] at hget
    split at hget
    · cases hget
    · exact ⟨rotx', hget, hclient⟩
  forth id rotx hget hclient := by
    have hne : id ≠ id₀ := by
      rintro rfl
      rw [hget₀] at hget
      cases hget
      exact hk hclient
    exact ⟨rotx, by rw [h, ptrArraySet_get hget₀, if_neg hne]; exact hget, hclient, rfl⟩

end Slots

section Account

variable {k : ClientId c} {h : List (GrvAct c)} {server : ServerId c → GrvServerState c}
  {s : ServerId c} {t : ℚ} {e : GrvEvent c} {r : GrvOutcome c}
  {rest : Multiset (ServerId c × GrvRotxRequest c)}

theorem grvAsked_of_silent {st : GrvServerState c} (h₀ : grvRotxAnswersTo k r.outs = []) :
    grvAsked k (.server s t e st r :: h) = grvAsked k h :=
  pending_of_neither rfl (by simp [grvRotxAnswers, h₀])

/-- A handler call that is nothing to the client. -/
theorem GrvAccount.same {st : GrvServerState c}
    {asking asking' : Multiset (ServerId c × GrvRotxRequest c)}
    (hk : GrvAccount k h asking server) (hasking : asking' = asking)
    (hanswers : grvRotxAnswersTo k r.outs = [])
    (hopens : ∀ request, grvOpened r e = some request → request.client ≠ k)
    (hs : GrvSameSlots k (server s) r.state) :
    GrvAccount k (.server s t e st r :: h) asking' (Function.update server s r.state) := by
  have hnone : grvOpens k (.server s t e st r) = none := by
    rw [grvOpens, Option.filter_eq_none_iff]
    intro request hrequest
    simpa using hopens request hrequest
  have hsince : grvOpenedSince k (.server s t e st r :: h) = grvOpenedSince k h :=
    gathered_of_neither (by simp [grvRotxAnswers, hanswers]) hnone
  obtain ⟨helse, hpending⟩ := hk
  refine ⟨fun s' hs' => ?_, ?_⟩
  · by_cases hse : s' = s
    · subst hse
      rw [Function.update_self]
      exact (helse s' hs').same hs
    · rw [Function.update_of_ne hse]
      exact helse s' hs'
  · rw [grvAsked_of_silent hanswers, hsince, hasking]
    by_cases hse : k.server = s
    · subst hse
      rw [Function.update_self]
      exact hpending.same hs
    · rw [Function.update_of_ne hse]
      exact hpending

/-- **A handler call keeps the account of every client**, and opens only what was asked for and has
not been opened. -/
theorem GrvAccount.serve {st : GrvServerState c} (hs : GrvTxStep s st e r)
    (hst : st.rotxStates = (server s).rotxStates)
    (hk : GrvAccount k h (grvAsking (.inl s, e) k + rest) server) :
    GrvAccount k (.server s t e (server s) r :: h)
        (((r.placed s).map grvAsking).sum k + rest) (Function.update server s r.state) ∧
      (∀ request, grvOpened r e = some request → request.client = k →
        s = k.server ∧ grvAsked k h = some request ∧ grvOpenedSince k h = []) := by
  have hsame : ∀ {st'}, GrvSameSlots k st st' → GrvSameSlots k (server s) st' := by
    intro st' h
    refine ⟨?_, ?_⟩
    · rw [← hst]
      exact h.back
    · rw [← hst]
      exact h.forth
  cases hs with
  | pass hasking _ hrotx hanswers _ hopened _ =>
    have hnone : ∀ request, grvOpened r e ≠ some request := by
      intro request
      rw [hopened]
      rintro ⟨⟩
    refine ⟨hk.same ?_ (grvRotxAnswersTo_eq_nil hanswers) (fun request h => absurd h (hnone _))
      (hsame (.of_eq hrotx)), fun request h => absurd h (hnone _)⟩
    rw [hasking]
  | scatter request he houts hcont hrotx =>
    have hopened := GrvTxStep.opened_scatter he hcont
    have hanswers : grvRotxAnswersTo k r.outs = [] := by
      rw [houts]
      exact grvRotxAnswersTo_eq_nil (grvSliceRequests_not_answer s st request)
    have hnew : ((r.placed s).map grvAsking).sum = 0 := by
      rw [Outcome.sum_placed, houts, sum_grvSliceRequests_asking, hcont]
      rfl
    have hown : grvAsking (.inl s, e) = Pi.single request.client {(s, request)} := by
      rcases he with rfl | rfl <;> rfl
    by_cases hclient : request.client = k
    · -- the transaction of the client takes its slot
      subst hclient
      obtain ⟨helse, hpending⟩ := hk
      rw [hown, Pi.single_eq_same, Multiset.singleton_add] at hpending
      generalize hasked : grvAsked request.client h = asked at hpending
      generalize hsince : grvOpenedSince request.client h = opened at hpending
      cases hpending with
      | idle hzero => exact absurd hzero Multiset.cons_ne_zero
      | held _ hzero => exact absurd hzero Multiset.cons_ne_zero
      | @sent request' _ hone hfree =>
        obtain ⟨heq, rfl⟩ := (Multiset.singleton_eq_cons_iff _).mp hone.symm
        obtain ⟨rfl, rfl⟩ := Prod.mk.inj heq.symm
        have hslots : r.state.rotxStates =
            ptrArrayPut request.state (server request.client.server).rotxStates := by
          rw [hrotx, hst]
        have hopens : grvOpens request.client
            (.server request.client.server t e (server request.client.server) r) = some request := by
          simp [grvOpens, hopened, Option.filter]
        have hsince' : grvOpenedSince request.client
            (.server request.client.server t e (server request.client.server) r :: h) =
              [request] := by
          rw [grvOpenedSince, gathered_of_adds (by simp [grvRotxAnswers, hanswers]) hopens]
          exact congrArg _ hsince
        refine ⟨⟨fun s' hs' => ?_, ?_⟩, ?_⟩
        · rw [Function.update_of_ne hs']
          exact helse s' hs'
        · rw [grvAsked_of_silent hanswers, hasked, hsince', hnew, Function.update_self]
          have hget := ptrArrayPut_get request.state (server request.client.server).rotxStates
            (ptrArrayFree (server request.client.server).rotxStates)
          rw [if_pos rfl, ← hslots] at hget
          refine .held rfl rfl hget rfl rfl fun id' rotx' hget' hk' => ?_
          rw [hslots, ptrArrayPut_get] at hget'
          split at hget'
          · assumption
          · exact absurd hk' (hfree id' rotx' hget')
        · intro request' hrequest' _
          obtain rfl := Option.some.inj (hopened.symm.trans hrequest')
          exact ⟨rfl, rfl, rfl⟩
    · have hnone : ∀ request', grvOpened r e = some request' → request'.client ≠ k := by
        intro request' hrequest'
        obtain rfl := Option.some.inj (hopened.symm.trans hrequest')
        exact hclient
      refine ⟨hk.same ?_ hanswers hnone (hsame (.of_put hrotx hclient)),
        fun request' h hk => absurd hk (hnone _ h)⟩
      rw [hnew, hown, Pi.single_eq_of_ne (Ne.symm hclient)]
      rfl
  | receive slice rotx he hget _ houts hcont hrotx =>
    subst he
    have hnone : ∀ request, grvOpened r (.sliceResponse slice) ≠ some request := by
      rintro request ⟨⟩
    refine ⟨hk.same ?_ ?_ (fun request h => absurd h (hnone _)) (hsame (.of_receive hrotx hget)),
      fun request h => absurd h (hnone _)⟩
    · rw [Outcome.sum_placed, houts, hcont]
      rfl
    · rw [houts]
      rfl
  | answer slice rotx he hget hlast houts hcont hrotx =>
    subst he
    have hnone : ∀ request, grvOpened r (.sliceResponse slice) ≠ some request := by
      rintro request ⟨⟩
    refine ⟨?_, fun request h => absurd h (hnone _)⟩
    have hzero : ((r.placed s).map grvAsking).sum = 0 := by
      rw [Outcome.sum_placed, houts, hcont]
      rfl
    by_cases hclient : rotx.client = k
    · -- the transaction of the client is answered
      rw [hst] at hget hrotx
      obtain ⟨helse, hpending⟩ := hk
      obtain rfl : s = k.server := by
        by_contra hne
        exact helse s hne _ rotx hget hclient
      have hanswers : !(grvRotxAnswers k
          (.server k.server t (.sliceResponse slice) (server k.server) r)).isEmpty := by
        simp [grvRotxAnswers, grvRotxAnswersTo, houts, hclient]
      have hasked : grvAsked k (.server k.server t (.sliceResponse slice) (server k.server) r :: h) =
          none := pending_of_answers rfl hanswers
      have hsince : grvOpenedSince k
          (.server k.server t (.sliceResponse slice) (server k.server) r :: h) = [] :=
        gathered_of_starts hanswers
      generalize grvAsked k h = asked at hpending
      generalize grvOpenedSince k h = opened at hpending
      cases hpending with
      | idle _ hfree => exact absurd hclient (hfree _ rotx hget)
      | sent _ _ hfree => exact absurd hclient (hfree _ rotx hget)
      | @held request id rotx' _ hasking hget' hrotx' _ honly =>
        refine ⟨fun s' hs' => ?_, ?_⟩
        · rw [Function.update_of_ne hs']
          exact helse s' hs'
        · rw [hasked, hsince, hzero, Function.update_self, Pi.zero_apply, zero_add]
          refine .idle ((zero_add _).symm.trans hasking) fun id' rotx₁ hget₁ hk₁ => ?_
          rw [hrotx, ptrArraySet_get hget] at hget₁
          split at hget₁
          · cases hget₁
          · rename_i hne
            exact hne ((honly id' rotx₁ hget₁ hk₁).trans (honly _ rotx hget hclient).symm)
    · refine hk.same ?_ ?_ (fun request h => absurd h (hnone _))
        (hsame (.of_free hrotx hget hclient))
      · rw [hzero]
        rfl
      · simp [grvRotxAnswersTo, houts, hclient]

/-- What a client sends is under way for itself, and only if it is a transaction. -/
theorem GrvSends.asking (st : GrvClientState c) {k' : ClientId c} {st' : GrvClientState c}
    {r : GrvClientState c × List (GrvOut c)} (h : GrvSends k' st' r) :
    ((placedOfClient k' r.2).map grvAsking).sum = 0 ∧ grvRotxAsks k' (.client k' t e st r) = [] ∨
      ∃ request, request.client = k' ∧
        ((placedOfClient k' r.2).map grvAsking).sum = Pi.single k' {(k'.server, request)} ∧
        grvRotxAsks k' (.client k' t e st r) = [request] ∧ st'.requestTime = none := by
  cases h with
  | nothing => exact .inl ⟨rfl, by simp [grvRotxAsks]⟩
  | tick delay => exact .inl ⟨rfl, by simp [grvRotxAsks]⟩
  | request hidle _ _ hask =>
    cases hask with
    | get key => exact .inl ⟨rfl, by simp [grvRotxAsks]⟩
    | put key value => exact .inl ⟨rfl, by simp [grvRotxAsks]⟩
    | rotx keys => exact .inr ⟨_, rfl, add_zero _, by simp [grvRotxAsks], hidle⟩

theorem GrvLearn.not_asking {k' : ClientId c} {st st' : GrvClientState c}
    (h : GrvLearn k' st e st') : grvAsking (.inr k', e) = 0 := by
  cases h <;> rfl

/-- What does not refer to a client is not asked for it. -/
theorem grvAsking_client {x : (ServerId c ⊕ ClientId c) × GrvEvent c}
    (h : grvRefs x (.client k .rotx) = 0) : grvAsking x k = 0 := by
  have hone : ∀ {s : ServerId c} {request : GrvRotxRequest c},
      (GrvRef.client request.client .rotx).one (.client k .rotx) = (0 : ℤ) →
        (Pi.single request.client {(s, request)} :
          ClientId c → Multiset (ServerId c × GrvRotxRequest c)) k = 0 := by
    intro s request hzero
    by_cases hk : request.client = k
    · rw [hk, GrvRef.one_self] at hzero
      cases hzero
    · exact Pi.single_eq_of_ne (Ne.symm hk) _
  unfold grvAsking
  split
  · exact hone h
  · exact hone h
  · exact hone h
  · rfl

/-- Nothing is asked for a client that is alone. -/
theorem GrvAlone.asking {mail : Multiset ((ServerId c ⊕ ClientId c) × GrvEvent c)}
    (h : GrvAlone server mail k) : (mail.map fun x => grvAsking x k).sum = 0 := by
  refine Multiset.sum_eq_zero fun y hy => ?_
  obtain ⟨x, hx, rfl⟩ := Multiset.mem_map.mp hy
  exact grvAsking_client (h.events x hx .rotx)

/-- **A client asks for a transaction only if none is under way.** -/
theorem GrvAccount.client {k' : ClientId c} {st st' : GrvClientState c}
    {r : GrvClientState c × List (GrvOut c)} (hlearn : GrvLearn k' st e st')
    (hsends : GrvSends k' st' r)
    (halone : st'.requestTime = none → (∀ s, GrvFreeOf k' (server s)) ∧ (k' = k → rest = 0))
    (hk : GrvAccount k h (grvAsking (.inr k', e) k + rest) server) :
    GrvAccount k (.client k' t e st r :: h)
        (((placedOfClient k' r.2).map grvAsking).sum k + rest) server ∧
      (grvRotxAsks k (.client k' t e st r) ≠ [] → grvAsked k h = none) := by
  rw [hlearn.not_asking, Pi.zero_apply, zero_add] at hk
  obtain ⟨helse, hpending⟩ := hk
  have hsince : grvOpenedSince k (.client k' t e st r :: h) = grvOpenedSince k h :=
    gathered_of_neither rfl rfl
  by_cases hkk : k' = k
  · subst hkk
    rcases GrvSends.asking (t := t) (e := e) st hsends with
      ⟨hzero, hasks⟩ | ⟨request, hclient, hone, hasks, hnone⟩
    · have hasked : grvAsked k' (.client k' t e st r :: h) = grvAsked k' h :=
        pending_of_neither (by rw [hasks]; rfl) rfl
      refine ⟨⟨helse, ?_⟩, fun hne => absurd hasks hne⟩
      rw [hzero, hasked, hsince, Pi.zero_apply, zero_add]
      exact hpending
    · have hasked : grvAsked k' (.client k' t e st r :: h) = some request :=
        pending_of_asks (by rw [hasks]; rfl)
      obtain ⟨hfree, hrest⟩ := halone hnone
      obtain rfl := hrest rfl
      generalize grvAsked k' h = asked at hpending ⊢
      generalize grvOpenedSince k' h = opened at hpending hsince
      cases hpending with
      | idle =>
        refine ⟨⟨helse, ?_⟩, fun _ => rfl⟩
        rw [hone, hasked, hsince, Pi.single_eq_same, add_zero]
        exact .sent hclient rfl (hfree _)
      | sent _ hzero => exact absurd hzero.symm (Multiset.singleton_ne_zero _)
      | held _ _ hget hrotx => exact absurd hrotx (hfree _ _ _ hget)
  · have hasks : grvRotxAsks k (.client k' t e st r) = [] := if_neg hkk
    have hzero : ((placedOfClient k' r.2).map grvAsking).sum k = 0 := by
      rcases GrvSends.asking (t := t) (e := e) st hsends with
        ⟨hzero, -⟩ | ⟨request, -, hone, -⟩
      · rw [hzero]
        rfl
      · rw [hone, Pi.single_eq_of_ne (Ne.symm hkk)]
    have hasked : grvAsked k (.client k' t e st r :: h) = grvAsked k h :=
      pending_of_neither (by rw [hasks]; rfl) rfl
    refine ⟨⟨helse, ?_⟩, fun hne => absurd hasks hne⟩
    rw [hzero, hasked, hsince, zero_add]
    exact hpending

end Account

theorem sum_placed_asking (k : ClientId c) (l : List ((ServerId c ⊕ ClientId c) × GrvEvent c)) :
    (l.map grvAsking).sum k = (l.map fun x => grvAsking x k).sum := by
  rw [Pi.list_sum_apply, List.map_map]
  rfl

section Runs

variable {setup : Setup c (GrvEvent c)} {Q : GrvAct c → Prop} {M : GrvMail c} {h : List (GrvAct c)}

/-- **The account of every client is in order in every state of a run.** -/
theorem grv_account (hr : Mail.Run (grvProgram c) Q (grvWorld setup).config.mail M h)
    (k : ClientId c) :
    GrvAccount k h (M.events.map fun x => grvAsking x k).sum M.server := by
  refine hr.account (fun x => grvAsking x k) (GrvAccount k) ?_ ?_ ?_
  · intro M h s t e r mail hrun hev hserve hk
    have hstep := (grvProcessEvent_work (grvServerProcessEvent_some hserve)).txStep
    rw [← sum_placed_asking]
    exact (hk.serve hstep rfl).1
  · intro M h k' t decision e r mail hrun hev hclient hk
    obtain ⟨st', hlearn, -, hsends⟩ := grvClientProcessEvent_some hclient
    rw [← sum_placed_asking]
    refine (hk.client hlearn hsends fun hnone => ?_).1
    have halone := grv_asks_alone hrun hev hlearn hnone
    exact ⟨halone.rotx, by rintro rfl; exact halone.asking⟩
  · have hzero : ((grvWorld setup).config.mail.events.map fun x => grvAsking x k).sum = 0 := by
      refine Multiset.sum_eq_zero fun y hy => ?_
      obtain ⟨x, hx, rfl⟩ := Multiset.mem_map.mp hy
      rcases Setup.mem_mail hx with ⟨s, rfl, -⟩ | ⟨s, rfl⟩ | ⟨k, rfl⟩ <;> rfl
    rw [hzero]
    exact ⟨fun s _ => by rintro id rotx ⟨⟩, .idle rfl (by rintro id rotx ⟨⟩)⟩

/-- A client asks for one transaction at a time, and only if it has been answered the last one. -/
theorem grv_asks_once {A : Config (ServerId c) (ClientId c) (GrvEvent c) (GrvServerState c)
      (GrvClientState c)} {C : GrvCond c} {a : GrvAct c} {past later : List (GrvAct c)}
    (hr : Run (grvProgram c) C (grvWorld setup).config A (later ++ a :: past)) {k : ClientId c}
    {request : GrvRotxRequest c} (hask : request ∈ grvRotxAsks k a) :
    grvRotxAsks k a = [request] ∧ grvAsked k past = none := by
  obtain ⟨N, N', hrun, hstep⟩ := (hr.mail (Q := fun _ => True) fun _ _ => trivial).before rfl
  cases hstep with
  | serve => cases hask
  | @client k' t decision e r mail hev ht hclient =>
    have hkk : k' = k := by
      by_contra hkk
      rw [grvRotxAsks, if_neg hkk] at hask
      cases hask
    subst hkk
    obtain ⟨st', hlearn, -, hsends⟩ := grvClientProcessEvent_some hclient
    have haccount := grv_account hrun k'
    rw [hev, Multiset.map_cons, Multiset.sum_cons] at haccount
    have hasked := (haccount.client hlearn hsends fun hnone => by
      have halone := grv_asks_alone hrun hev hlearn hnone
      exact ⟨halone.rotx, fun _ => halone.asking⟩).2 (List.ne_nil_of_mem hask)
    rcases GrvSends.asking (t := t) (e := e) (N.client k') hsends with
      ⟨-, hnil⟩ | ⟨request', -, -, hone, -⟩
    · rw [hnil] at hask
      cases hask
    · rw [hone] at hask ⊢
      obtain rfl := List.mem_singleton.mp hask
      exact ⟨rfl, hasked⟩

end Runs

end CCSim
