/-
# Reads that miss nothing, in both protocols

A read returns the latest version that a server has and may show.  Here is the other half: of the
versions that it may show the server has all that it is going to get, up to its stable
time.  Whatever any replica accepts in the run, before the read or after it, is not later than what
is returned if it is due (`reads_complete`).  Versions that the server has discarded do not count:
it stops its work on an update that is older than the head of its chain without storing it.

The conditions are those under which version vectors do not go back (`GrInTime`, `GrvInTime`); in
`gr` the only partition of a data center may take a first entry only when no other is behind.
-/
import CCSim.Causality
import CCSim.Gr.Complete
import CCSim.Grv.Complete

namespace CCSim

variable {c : Cluster}

/-! ## 1. GETs and slices -/

/-- **Reads miss nothing.**  A GET is answered with a version that is at least as late as all
versions of the key, of whatever replica and whenever they are accepted, that the stable time of the
server has reached; and a slice with one that is at least as late as all that are not later than the
snapshot. In `grv` they have to be visible, too. -/
theorem reads_complete (c : Cluster) :
    (∀ (setup : Setup c (GrEvent c)) (W : GrWorld c) (h : List (GrAct c)),
      World.Run (grProgram c) setup.conf GrStable (grWorld setup) W h →
      ∀ later s t e st r past, h = later ++ .server s t e st r :: past → ∀ o ∈ r.outs,
        (∀ kz ∈ grGetAnswered e o,
          (grReplicating c).Complete h (.server s t e st r :: past) s kz.1
            (fun _ item => item.updateTime ≤ r.state.gst) kz.2) ∧
        ∀ s' slice, o = .toServer s' (.sliceResponse slice) →
          (grReplicating c).Complete h past s slice.key
            (fun _ item => item.updateTime ≤ slice.snapshotTime) slice.updateTime) ∧
    ∀ (setup : Setup c (GrvEvent c)) (W : GrvWorld c) (h : List (GrvAct c)),
      World.Run (grvProgram c) setup.conf GrvInTime (grvWorld setup) W h →
      ∀ later s t e st r past, h = later ++ .server s t e st r :: past → ∀ o ∈ r.outs,
        (∀ kz ∈ grvGetAnswered e o,
          (grvReplicating c).Complete h (.server s t e st r :: past) s kz.1
            (fun j item => item.updateTime ≤ r.state.gstVector j ∧
              grvIsValueVisible s r.state.gstVector item) kz.2) ∧
        ∀ s' slice, o = .toServer s' (.sliceResponse slice) → ∀ v ∈ slice.values,
          (grvReplicating c).Complete h past s v.key
            (fun j item => item.updateTime ≤ st.gstVector j ∧ grvIsValueVisibleSnapshot
              (Function.update st.gstVector s.1 (c.clock s t)) item) v.updateTime := by
  constructor
  · intro setup W h hrun later s t e st r past hh o ho
    refine ⟨fun kz hkz => gr_get_complete hrun.config hh ho hkz, ?_⟩
    rintro s' slice rfl
    exact gr_slice_complete hrun.config hh ho
  · intro setup W h hrun later s t e st r past hh o ho
    refine ⟨fun kz hkz => grv_get_complete hrun.config hh ho hkz, ?_⟩
    rintro s' slice rfl v hv
    exact grv_slice_complete hrun.config hh ho hv

/-! ## 2. A run with reads -/

theorem rat_eight_fifths_pos : (0 : ℚ) < 8 / 5 := by
  norm_num

/-- Two replicas of one partition; the clock of the second is a second ahead. -/
def brisk : Cluster :=
  { smallCluster 2 1 two_lt_uintSize one_lt_uintSize fun r _ => r with
    gstInterval := 8 / 5
    gstInterval_pos := rat_eight_fifths_pos }

theorem start_le_brisk_clockInterval : 2 / 5 ≤ brisk.clockInterval := by
  norm_num [brisk, smallCluster]

theorem start_le_brisk_gstInterval : 2 / 5 ≤ brisk.gstInterval := by
  norm_num [brisk]

theorem start_le_briskClients :
    ∀ x ∈ [((1 / 2 : ℚ), clientAt brisk 0 0 0), (9 / 5, clientAt brisk 1 0 0)], 2 / 5 ≤ x.1 := by
  simp only [List.forall_mem_cons, List.not_mem_nil, false_implies, implies_true, and_true]
  norm_num

/-- A client at each replica; the second one starts after the first stable time was computed. -/
def briskSetup (E : Type) : Setup brisk E :=
  smallSetup E (1 / 100) start_le_brisk_clockInterval start_le_brisk_gstInterval
    [(1 / 2, clientAt brisk 0 0 0), (9 / 5, clientAt brisk 1 0 0)] start_le_briskClients

/-- A PUT of key 0 at the first replica; the client at the second one reads it and writes key 1;
later the first client reads both keys in a transaction. -/
def grBriskRun : List (Choice Decision) :=
  choices
    [(4, 0), (5, 0), (5, 0), (5, 2), (5, 0), (5, 0), (5, 0), (6, 0), (6, 0), (6, 0), (1, 2),
      (2, 0), (7, 0), (4, 0), (6, 2), (5, 0), (5, 0), (5, 0), (6, 0), (6, 0), (6, 0), (0, 1),
      (0, 1), (5, 0), (6, 0), (0, 0), (5, 1), (5, 0), (5, 0), (5, 0), (5, 0), (5, 2), (5, 0),
      (5, 0), (5, 0), (5, 0), (5, 0), (5, 0), (1, 0), (4, 0), (1, 2), (3, 2), (3, 0), (5, 0),
      (4, 0), (5, 0), (5, 0), (5, 0), (5, 0), (3, 0), (3, 0), (3, 0), (3, 0), (3, 2), (3, 2),
      (3, 0), (5, 0), (4, 0), (5, 0), (5, 0), (5, 0), (5, 0), (5, 0), (1, 1), (1, 1), (4, 0),
      (5, 0), (0, 0), (4, 1), (4, 0), (4, 0), (4, 0), (4, 2), (4, 1), (4, 0), (4, 1), (4, 0),
      (4, 0), (4, 0), (4, 1)]
    [(0, .put 0 7), (4, .tick 3), (25, .get 0), (27, .put 1 8), (67, .rotx [0, 1])] []

def grvBriskRun : List (Choice Decision) :=
  choices
    [(4, 0), (5, 0), (5, 0), (5, 2), (5, 0), (5, 0), (5, 0), (6, 0), (6, 0), (6, 0), (1, 2),
      (2, 0), (7, 0), (4, 0), (6, 2), (5, 0), (5, 0), (5, 0), (7, 0), (6, 0), (6, 0), (6, 0),
      (0, 1), (0, 1), (5, 0), (6, 0), (0, 0), (5, 1), (5, 0), (5, 0), (5, 0), (5, 0), (5, 2),
      (5, 0), (5, 0), (5, 0), (5, 0), (5, 0), (5, 0), (1, 0), (4, 0), (1, 2), (3, 2), (3, 0),
      (5, 0), (4, 0), (5, 0), (5, 0), (5, 0), (5, 0), (5, 0), (3, 0), (3, 0), (3, 0), (3, 0),
      (3, 2), (3, 2), (3, 0), (5, 0), (4, 0), (5, 0), (5, 0), (5, 0), (5, 0), (5, 0), (1, 1),
      (1, 1), (4, 0), (5, 0), (0, 0), (4, 1), (4, 1)]
    [(0, .put 0 7), (4, .tick 3), (26, .get 0), (28, .put 1 8), (69, .rotx [0, 1])] []

/-- The handler calls tell of a read by the server `s` with this result. -/
def seesRead {E σ κ : Type} (answer : E → Out (ServerId c) (ClientId c) E → Option (Key × ℚ))
    (s : ServerId c) (kz : Key × ℚ) (h : List (Act (ServerId c) (ClientId c) E σ κ)) : Bool :=
  h.any fun
    | .server s' _ e _ r => decide (s' = s) && r.outs.any fun o => decide (answer e o = some kz)
    | .client _ _ _ _ _ => false

theorem exists_read {E σ κ : Type}
    {answer : E → Out (ServerId c) (ClientId c) E → Option (Key × ℚ)} {s : ServerId c}
    {kz : Key × ℚ} {h : List (Act (ServerId c) (ClientId c) E σ κ)}
    (hseen : seesRead answer s kz h = true) :
    ∃ later t e st r past o, h = later ++ .server s t e st r :: past ∧ o ∈ r.outs ∧
      answer e o = some kz := by
  obtain ⟨a, ha, hread⟩ := List.any_eq_true.mp hseen
  cases a with
  | client => cases hread
  | server s' t e st r =>
    rw [Bool.and_eq_true, decide_eq_true_eq, List.any_eq_true] at hread
    obtain ⟨rfl, o, ho, hanswer⟩ := hread
    obtain ⟨later, past, hh⟩ := List.append_of_mem ha
    exact ⟨later, t, e, st, r, past, o, hh, ho, of_decide_eq_true hanswer⟩

/-- The key and the time of a slice. -/
def grSliceSent (_ : GrEvent c) : GrOut c → Option (Key × ℚ)
  | .toServer _ (.sliceResponse slice) => some (slice.key, slice.updateTime)
  | _ => none

/-- The key and the time of the first value of a slice. -/
def grvSliceSent (_ : GrvEvent c) : GrvOut c → Option (Key × ℚ)
  | .toServer _ (.sliceResponse slice) => slice.values.head?.map fun v => (v.key, v.updateTime)
  | _ => none

def grStableTest (W : GrWorld c) (h : List (GrAct c)) (a : GrAct c) : Bool :=
  grInTimeTest W h a && grFirstEntryHeldTest W h a

theorem grStable_tested : Cond.TestedBy (GrStable (c := c)) grStableTest := by
  intro W h a ht
  rw [grStableTest, Bool.and_eq_true] at ht
  exact ⟨grInTime_tested W h a ht.1, grFirstEntryHeld_tested W h a ht.2⟩

/-- What the first run shows: the GET at the second replica returns the version of the first one, a
slice at the first replica has the version of the second one, which depends on the other, and the
transaction returns both values. -/
def grBriskSeen (x : GrWorld brisk × List (GrAct brisk)) : Bool :=
  (seesRead grGetAnswered (serverAt brisk 1 0) (0, 13 / 25) x.2 &&
    seesRead grSliceSent (serverAt brisk 0 0) (1, 57 / 20) x.2) &&
  (((grPutView brisk).dependencies x.2).any (fun y => decide (y.1.key = 0 ∧ y.2.key = 1)) &&
    x.2.any fun a => (grRotxAnswers (clientAt brisk 0 0 0) a).any fun response =>
      decide (response.values = [7, 8]))

theorem grBriskRun_seen :
    (World.replay (grProgram brisk) (briskSetup _).conf grStableTest grBriskRun
      (grWorld (briskSetup _)) []).any grBriskSeen = true := by
  decide +kernel

/-- The GET at the second replica returns the version of the first one, and a transaction at the
first replica the version of the second one. -/
theorem reads_complete_brisk :
    (∃ W h, World.Run (grProgram brisk) (briskSetup _).conf GrStable (grWorld (briskSetup _)) W h ∧
      (∃ later t e st r past, h = later ++ .server (serverAt brisk 1 0) t e st r :: past ∧
        (grReplicating brisk).Complete h (.server (serverAt brisk 1 0) t e st r :: past)
          (serverAt brisk 1 0) 0 (fun _ item => item.updateTime ≤ r.state.gst) (13 / 25)) ∧
      ∃ later t e st r past time, h = later ++ .server (serverAt brisk 0 0) t e st r :: past ∧
        (grReplicating brisk).Complete h past (serverAt brisk 0 0) 1
          (fun _ item => item.updateTime ≤ time) (57 / 20)) ∧
    ∃ W h, World.Run (grvProgram brisk) (briskSetup _).conf GrvInTime (grvWorld (briskSetup _))
        W h ∧
      (∃ later t e st r past, h = later ++ .server (serverAt brisk 1 0) t e st r :: past ∧
        (grvReplicating brisk).Complete h (.server (serverAt brisk 1 0) t e st r :: past)
          (serverAt brisk 1 0) 0 (fun j item => item.updateTime ≤ r.state.gstVector j ∧
            grvIsValueVisible (serverAt brisk 1 0) r.state.gstVector item) (13 / 25)) ∧
      ∃ later t e st r past, h = later ++ .server (serverAt brisk 0 0) t e st r :: past ∧
        (grvReplicating brisk).Complete h past (serverAt brisk 0 0) 0
          (fun j item => item.updateTime ≤ st.gstVector j ∧ grvIsValueVisibleSnapshot
            (Function.update st.gstVector (serverAt brisk 0 0).1
              (brisk.clock (serverAt brisk 0 0) t)) item) (13 / 25) := by
  constructor
  · obtain ⟨W, h, hrun, hseen⟩ := World.Run.of_replay (grProgram brisk) (briskSetup _).conf
      (grWorld (briskSetup _)) grStable_tested grBriskRun grBriskSeen grBriskRun_seen
    obtain ⟨hget, hslice⟩ := Bool.and_eq_true_iff.mp (Bool.and_eq_true_iff.mp hseen).1
    obtain ⟨later, t, e, st, r, past, o, hh, ho, hanswer⟩ := exists_read hget
    obtain ⟨later', t', e', st', r', past', o', hh', ho', hanswer'⟩ := exists_read hslice
    refine ⟨W, h, hrun, ⟨later, t, e, st, r, past, hh, ?_⟩, later', t', e', st', r', past', ?_⟩
    · exact ((reads_complete brisk).1 _ W h hrun later _ t e st r past hh o ho).1 _ hanswer
    · have hcomplete :=
        ((reads_complete brisk).1 _ W h hrun later' _ t' e' st' r' past' hh' o' ho').2
      unfold grSliceSent at hanswer'
      split at hanswer'
      · rename_i s' slice
        obtain ⟨hkey, htime⟩ := Prod.mk.inj (Option.some.inj hanswer')
        have hread := hcomplete s' slice rfl
        rw [hkey, htime] at hread
        exact ⟨slice.snapshotTime, hh', hread⟩
      · cases hanswer'
  · obtain ⟨W, h, hrun, hseen⟩ := World.Run.of_replay (grvProgram brisk) (briskSetup _).conf
      (grvWorld (briskSetup _)) grvInTime_tested grvBriskRun
      (fun x => seesRead grvGetAnswered (serverAt brisk 1 0) (0, 13 / 25) x.2 &&
        seesRead grvSliceSent (serverAt brisk 0 0) (0, 13 / 25) x.2) (by decide +kernel)
    obtain ⟨hget, hslice⟩ := Bool.and_eq_true_iff.mp hseen
    obtain ⟨later, t, e, st, r, past, o, hh, ho, hanswer⟩ := exists_read hget
    obtain ⟨later', t', e', st', r', past', o', hh', ho', hanswer'⟩ := exists_read hslice
    refine ⟨W, h, hrun, ⟨later, t, e, st, r, past, hh, ?_⟩, later', t', e', st', r', past', hh', ?_⟩
    · exact ((reads_complete brisk).2 _ W h hrun later _ t e st r past hh o ho).1 _ hanswer
    · have hcomplete :=
        ((reads_complete brisk).2 _ W h hrun later' _ t' e' st' r' past' hh' o' ho').2
      unfold grvSliceSent at hanswer'
      split at hanswer'
      · rename_i s' slice
        obtain ⟨v, hv, hread⟩ := Option.map_eq_some_iff.mp hanswer'
        obtain ⟨hkey, htime⟩ := Prod.mk.inj hread
        have hvalue := hcomplete s' slice rfl v (List.mem_of_mem_head? hv)
        rw [hkey, htime] at hvalue
        exact hvalue
      · cases hanswer'

end CCSim
