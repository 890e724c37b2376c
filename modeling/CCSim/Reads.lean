/-
# GETs at one server never go back, in both protocols

A server shows a client the latest version that it has and can see.  Versions stay in their chains
and stay visible, so whatever a GET of a key has returned at a server, a later GET of this key
returns it or something later there (`reads_never_regress`): for any two clients, with any stable
time in the requests.
-/
import CCSim.Gr.Coverage
import CCSim.Gr.Frames
import CCSim.Grv.Coverage
import CCSim.Grv.Frames
import CCSim.Replicas.Reads

namespace CCSim

open Replication

variable {c : Cluster}

/-! ## 1. What GETs return in `gr` -/

/-- The key and the time of the version that a handler of a GET returns.  A proxy that passes a
response on returns nothing itself. -/
def grGetAnswered (e : GrEvent c) (o : GrOut c) : Option (Key × ℚ) :=
  match e, o.event with
  | .getRequest _, .getResponse response => some (response.key, response.updateTimestamp)
  | .getRequestUnlocked _, .getResponse response => some (response.key, response.updateTimestamp)
  | _, _ => none

theorem grIsValueVisible_mono {s : ServerId c} {gst gst' : ℚ} (h : gst ≤ gst') {x : GrItem c}
    (hx : grIsValueVisible s gst x) : grIsValueVisible s gst' x := by
  simp only [grIsValueVisible, decide_eq_true_eq] at hx ⊢
  exact hx.imp_right fun hx => hx.trans h

/-- What a handler of a GET returns is what it reads. -/
theorem grGetUnlocked_answer {s : ServerId c} {st : GrServerState c} {id : ℕ} {r : GrOutcome c}
    (h : grProcessGetRequestUnlocked s st id = some r) {o : GrOut c} (ho : o ∈ r.outs) :
    r.state.store = st.store ∧ r.state.gst = st.gst ∧ ∃ getState : GrGetState c,
      o.event = .getResponse (grGetAnswer s st getState) := by
  unfold grProcessGetRequestUnlocked at h
  split at h
  · cases h
  · rename_i getState _
    split at h
    · cases h
      obtain rfl := List.mem_singleton.mp ho
      exact ⟨rfl, rfl, getState, grSend_event _ _⟩
    · cases h

theorem grGetAnswered_read {s : ServerId c} {st : GrServerState c} {e : GrEvent c}
    {r : GrOutcome c} (h : grProcessEvent s st e = some r) {o : GrOut c} (ho : o ∈ r.outs)
    {kz : Key × ℚ} (hkz : kz ∈ grGetAnswered e o) :
    kz.2 = updateTimeOf (getValueAt r.state.store kz.1 (grIsValueVisible s r.state.gst)) := by
  unfold grGetAnswered at hkz
  split at hkz
  · rename_i request response hevent
    cases hkz
    simp only [grProcessEvent, grProcessGetRequest] at h
    split at h
    · split at h
      · cases h
      · cases h
        obtain rfl := List.mem_singleton.mp ho
        cases hevent
    · split at h
      · cases h
        cases ho
      · obtain ⟨hstore, hgst, getState, hget⟩ := grGetUnlocked_answer h ho
        cases hevent.symm.trans hget
        rw [hstore, hgst]
        rfl
  · rename_i id response hevent
    cases hkz
    obtain ⟨hstore, hgst, getState, hget⟩ := grGetUnlocked_answer h ho
    cases hevent.symm.trans hget
    rw [hstore, hgst]
    rfl
  · cases hkz

def grReading (c : Cluster) : Reading (grReplicating c) where
  visible s st := grIsValueVisible s st.gst
  answer := grGetAnswered
  visible_grows h _ hx := grIsValueVisible_mono (grServerProcessEvent_gst h) hx
  answer_read h _ ho _ hkz := grGetAnswered_read (grServerProcessEvent_some h) ho hkz

/-! ## 2. What GETs return in `grv` -/

def grvGetAnswered (e : GrvEvent c) (o : GrvOut c) : Option (Key × ℚ) :=
  match e, o.event with
  | .getRequest _, .getResponse response => some (response.key, response.updateTimestamp)
  | .getRequestUnlocked _, .getResponse response => some (response.key, response.updateTimestamp)
  | _, _ => none

theorem grvIsValueVisible_mono {s : ServerId c} {v w : TimeVector c} (h : ∀ i, v i ≤ w i)
    {x : GrvItem c} (hx : grvIsValueVisible s v x) : grvIsValueVisible s w x := by
  simp only [grvIsValueVisible, Bool.or_eq_true, decide_eq_true_eq, List.all_eq_true,
    Bool.not_eq_true', decide_eq_false_iff_not, not_lt] at hx ⊢
  refine hx.imp_right fun hx i hi => (hx i hi).imp_right fun hle => hle.trans (h i)

theorem grvGetUnlocked_answer {s : ServerId c} {st : GrvServerState c} {request : GrvGetRequest c}
    {r : GrvOutcome c} (h : grvProcessGetRequestUnlocked s st request = some r) {o : GrvOut c}
    (ho : o ∈ r.outs) :
    r.state = st ∧ o.event = .getResponse (grvGetAnswer s st request) := by
  unfold grvProcessGetRequestUnlocked at h
  split at h
  · cases h
    obtain rfl := List.mem_singleton.mp ho
    exact ⟨rfl, grvSend_event _ _⟩
  · cases h

theorem grvGetAnswered_read {s : ServerId c} {st : GrvServerState c} {e : GrvEvent c}
    {r : GrvOutcome c} (h : grvProcessEvent s st e = some r) {o : GrvOut c} (ho : o ∈ r.outs)
    {kz : Key × ℚ} (hkz : kz ∈ grvGetAnswered e o) :
    kz.2 = updateTimeOf
      (getValueAt r.state.store kz.1 (grvIsValueVisible s r.state.gstVector)) := by
  unfold grvGetAnswered at hkz
  split at hkz
  · rename_i request response hevent
    cases hkz
    simp only [grvProcessEvent, grvProcessGetRequest] at h
    split at h
    · split at h
      · cases h
      · cases h
        obtain rfl := List.mem_singleton.mp ho
        cases hevent
    · split at h
      · cases h
        cases ho
      · obtain ⟨hstate, hget⟩ := grvGetUnlocked_answer h ho
        cases hevent.symm.trans hget
        rw [hstate]
        rfl
  · rename_i request response hevent
    cases hkz
    obtain ⟨hstate, hget⟩ := grvGetUnlocked_answer h ho
    cases hevent.symm.trans hget
    rw [hstate]
    rfl
  · cases hkz

def grvReading (c : Cluster) : Reading (grvReplicating c) where
  visible s st := grvIsValueVisible s st.gstVector
  answer := grvGetAnswered
  visible_grows h _ hx := grvIsValueVisible_mono (grvServerProcessEvent_gst h) hx
  answer_read h _ ho _ hkz := grvGetAnswered_read (grvServerProcessEvent_some h) ho hkz

/-! ## 3. Reads never regress -/

/-- **GETs of a key at a server never go back**: the update times of the versions that it returns
never decrease, over a whole run and for all clients together. -/
theorem reads_never_regress (c : Cluster) :
    (∀ (setup : Setup c (GrEvent c)) (C : GrCond c) (W : GrWorld c) (h : List (GrAct c)),
      World.Run (grProgram c) setup.conf C (grWorld setup) W h → ∀ s key,
        ((grReading c).times s key h).Pairwise (· ≤ ·)) ∧
    ∀ (setup : Setup c (GrvEvent c)) (C : GrvCond c) (W : GrvWorld c) (h : List (GrvAct c)),
      World.Run (grvProgram c) setup.conf C (grvWorld setup) W h → ∀ s key,
        ((grvReading c).times s key h).Pairwise (· ≤ ·) :=
  ⟨fun setup _ _ _ hrun s key =>
    ((grReading c).sorted (grWorld_fresh setup) hrun.config s key).1,
  fun setup _ _ _ hrun s key =>
    ((grvReading c).sorted (grvWorld_fresh setup) hrun.config s key).1⟩

/-- A GET of key 0, a PUT of it and a GET again, at the first replica. -/
def readingRun : List (Choice Decision) :=
  choices
    [(5, 0), (4, 0), (4, 1), (5, 0), (4, 0), (4, 0), (4, 0), (4, 2), (6, 0), (4, 0), (4, 0),
      (5, 0), (5, 0), (5, 0), (1, 2), (2, 0), (6, 0), (6, 2), (5, 0), (2, 1)]
    [(1, .get 0), (4, .put 0 7), (9, .get 0)] []

theorem reads_never_regress_put :
    (∃ W h, World.Run (grProgram pair) (pairSetup _).conf (fun _ _ => True)
        (grWorld (pairSetup _)) W h ∧
      (grReading pair).times (serverAt pair 0 0) 0 h = [0, 41 / 50] ∧
      ((grReading pair).times (serverAt pair 0 0) 0 h).Pairwise (· ≤ ·)) ∧
    ∃ W h, World.Run (grvProgram pair) (pairSetup _).conf (fun _ _ => True)
        (grvWorld (pairSetup _)) W h ∧
      (grvReading pair).times (serverAt pair 0 0) 0 h = [0, 41 / 50] ∧
      ((grvReading pair).times (serverAt pair 0 0) 0 h).Pairwise (· ≤ ·) := by
  constructor
  · obtain ⟨W, h, hrun, hseen⟩ := World.Run.of_replay (grProgram pair) (pairSetup _).conf
      (grWorld (pairSetup _)) Cond.tested_true readingRun
      (fun x => decide ((grReading pair).times (serverAt pair 0 0) 0 x.2 = [0, 41 / 50]))
      (by decide +kernel)
    exact ⟨W, h, hrun, of_decide_eq_true hseen, (reads_never_regress pair).1 _ _ _ _ hrun _ _⟩
  · obtain ⟨W, h, hrun, hseen⟩ := World.Run.of_replay (grvProgram pair) (pairSetup _).conf
      (grvWorld (pairSetup _)) Cond.tested_true readingRun
      (fun x => decide ((grvReading pair).times (serverAt pair 0 0) 0 x.2 = [0, 41 / 50]))
      (by decide +kernel)
    exact ⟨W, h, hrun, of_decide_eq_true hseen, (reads_never_regress pair).2 _ _ _ _ hrun _ _⟩

end CCSim
