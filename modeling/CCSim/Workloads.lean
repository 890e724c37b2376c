/-
# The round-robin workloads

A workload decides what its client asks for.  Its functions are called when the client starts, when
an answer arrives, and when a tick is due (`client/workloads`), and each call ends with a request or
with the next tick.  So what a workload does in a run is a sequence of calls, each of which depends on
what the one before has decided (`Workload.run`); when they are made plays no role.

`get_put_rr` asks every partition for a key and then writes one, in a circle (`get_put_rr_cycle`).
`rotx_put_rr` is meant to repeat a number of ROTXs and a number of PUTs.  It resets its counters while
there are PUTs left to do instead of when there are none, and never does what it is meant to
(`rotx_put_rr_never_cycles`).

Random values are arguments.  `none` is a failed assertion.
-/
import CCSim.Keys
import CCSim.Setup
import Mathlib.Data.Finset.Card
import Mathlib.Data.List.Nodup

namespace CCSim

/-! ## 1. Workloads -/

/-- `workload_functions_t`: the state of a workload is `σ`, and `ρ` is what a call draws. -/
structure Workload (σ ρ : Type) where
  onInit : ρ → Option (σ × Decision)
  onTick : ρ → σ → Option (σ × Decision)
  onGetResponse : ρ → σ → Option (σ × Decision)
  onPutResponse : ρ → σ → Option (σ × Decision)
  onRotxResponse : ρ → σ → Option (σ × Decision)

variable {σ ρ : Type}

/-- The call after a decision: an answer of the kind that was asked for, or the tick. -/
def Workload.next (w : Workload σ ρ) (draws : ρ) (st : σ) : Decision → Option (σ × Decision)
  | .nothing => none
  | .tick _ => w.onTick draws st
  | .get _ => w.onGetResponse draws st
  | .put _ _ => w.onPutResponse draws st
  | .rotx _ => w.onRotxResponse draws st

/-- The calls of a run, by number. -/
def Workload.run (w : Workload σ ρ) (draws : ℕ → ρ) : ℕ → Option (σ × Decision)
  | 0 => w.onInit (draws 0)
  | n + 1 => (w.run draws n).bind fun x => w.next (draws (n + 1)) x.1 x.2

theorem Workload.run_isSome {w : Workload σ ρ} {draws : ℕ → ρ} {m n : ℕ} (hmn : m ≤ n)
    (h : (w.run draws n).isSome) : (w.run draws m).isSome := by
  induction n, hmn using Nat.le_induction with
  | base => exact h
  | succ n _ ih =>
    refine ih ?_
    rw [Workload.run] at h
    exact Option.isSome_of_isSome_bind h

/-- The requests of a run, by number, for a workload that schedules a tick after every answer. -/
def Workload.request (w : Workload σ ρ) (draws : ℕ → ρ) (n : ℕ) : Option Decision :=
  (w.run draws (2 * n)).map Prod.snd

/-! ## 2. `get_put_rr` -/

section GetPutRr

variable (K : KeyConfig)

/-- `struct state`. -/
structure GetPutState where
  lastGetPartition : ℕ
  lastPutPartition : ℕ
  numGetSincePut : ℕ
  targetRequestTime : ℚ

/-- What a call may draw: the two cursors, a key, a value and the thinking time, and how long the
last request has taken. -/
structure GetPutDraws where
  getCursor : ℕ
  putCursor : ℕ
  key : ℤ
  value : ℕ
  clientThinkingTime : ℚ
  lastRequestDuration : ℚ

/-- `tick`. -/
def getPutTick (draws : GetPutDraws) (st : GetPutState) : Option (GetPutState × Decision) :=
  if st.numGetSincePut = K.numPartitions then
    let putPartition := incRange st.lastPutPartition 0 (K.numPartitions - 1)
    (clusterRandomKeyOnPartition K draws.key putPartition).map fun key =>
      ({ st with numGetSincePut := 0, lastPutPartition := putPartition }, .put key draws.value)
  else
    let getPartition := incRange st.lastGetPartition 0 (K.numPartitions - 1)
    (clusterRandomKeyOnPartition K draws.key getPartition).map fun key =>
      ({ st with lastGetPartition := getPartition, numGetSincePut := st.numGetSincePut + 1 },
        .get key)

/-- `on_init`. -/
def getPutInit (draws : GetPutDraws) : Option (GetPutState × Decision) :=
  (randomUint 0 K.numPartitions draws.getCursor).bind fun lastGetPartition =>
    (randomUint 0 K.numPartitions draws.putCursor).bind fun lastPutPartition =>
      getPutTick K draws
        { lastGetPartition := lastGetPartition, lastPutPartition := lastPutPartition
          numGetSincePut := 0, targetRequestTime := 0 }

/-- `thinking_time`. -/
def getPutThinkingTime (draws : GetPutDraws) (st : GetPutState) : ℚ :=
  if 0 < st.targetRequestTime then
    if draws.lastRequestDuration < st.targetRequestTime then
      st.targetRequestTime - draws.lastRequestDuration
    else 0
  else draws.clientThinkingTime

/-- `workload_get_put_rr_funcs`. -/
def getPutRr : Workload GetPutState GetPutDraws where
  onInit := getPutInit K
  onTick := getPutTick K
  onGetResponse draws st := some (st, .tick (getPutThinkingTime draws st))
  onPutResponse draws st := some (st, .tick (getPutThinkingTime draws st))
  onRotxResponse _ _ := none

variable {K}

/-- The next cursor, for a cursor that may be out of range by one. -/
theorem incRange_cursor {P v : ℕ} (hP : 0 < P) (hPlt : P < uintSize) (hv : v ≤ P) :
    incRange v 0 (P - 1) = (min v (P - 1) + 1) % P := by
  unfold incRange
  by_cases hlast : P - 1 ≤ v
  · rw [min_eq_right hlast, Nat.sub_add_cancel hP, Nat.mod_self]
    by_cases hwrap : v + 1 < uintSize
    · rw [Nat.mod_eq_of_lt hwrap, if_pos (by omega)]
    · have hmod : (v + 1) % uintSize = 0 := by
        rw [show v + 1 = uintSize by omega, Nat.mod_self]
      rw [hmod, ite_self]
  · rw [min_eq_left (by omega), Nat.mod_eq_of_lt (by omega), if_neg (by omega),
      Nat.mod_eq_of_lt (by omega)]

/-- The cursor moves on by one. -/
theorem incRange_mod {P v : ℕ} (hP : 0 < P) (hPlt : P < uintSize) :
    incRange (v % P) 0 (P - 1) = (v + 1) % P := by
  have hv := Nat.mod_lt v hP
  rw [incRange_cursor hP hPlt hv.le, min_eq_left (by omega), Nat.mod_add_mod]

/-- The partition of a request, if the cursors start at `g` and `p`: the requests come in rounds of a
GET for every partition and a PUT. -/
def getPutPartition (P g p n : ℕ) : ℕ :=
  if n % (P + 1) < P then (g + n % (P + 1) + 1) % P else (p + n / (P + 1) + 1) % P

/-- What a request is. -/
def IsGetPutRequest (K : KeyConfig) (g p n : ℕ) (d : Decision) : Prop :=
  ∃ key ≤ K.keyMax, K.partitionForKey key = getPutPartition K.numPartitions g p n ∧
    if n % (K.numPartitions + 1) < K.numPartitions then d = .get key
    else ∃ value, d = .put key value

/-- The state before a request. -/
structure GetPutState.At (K : KeyConfig) (g p n : ℕ) (st : GetPutState) : Prop where
  count : st.numGetSincePut = n % (K.numPartitions + 1)
  get : incRange st.lastGetPartition 0 (K.numPartitions - 1) =
    (g + n % (K.numPartitions + 1) + 1) % K.numPartitions
  put : incRange st.lastPutPartition 0 (K.numPartitions - 1) =
    (p + n / (K.numPartitions + 1) + 1) % K.numPartitions

/-- A random value in range is the key that it stands for. -/
theorem keyOfInt_le {random : ℤ} (h : 0 ≤ random ∧ random ≤ K.keyMax) :
    keyOfInt random ≤ K.keyMax := by
  have hlt := K.keyMax_lt
  have hsize : uintSize ≤ keySize := by decide
  rw [keyOfInt, Int.emod_eq_of_lt h.1 (by omega)]
  omega

theorem clusterRandomKey_le {random : ℤ} (h : 0 ≤ random ∧ random ≤ K.keyMax) {key : ℕ}
    (hkey : clusterRandomKey K random = some key) : key ≤ K.keyMax := by
  have hle := keyOfInt_le h
  unfold clusterRandomKey at hkey
  split at hkey
  · cases hkey
    exact hle
  · split at hkey <;> cases hkey
    exact hle

/-- The last assertion of the generator never fails. -/
theorem clusterRandomKeyOnPartition_isSome {random : ℤ} {partition : ℕ}
    (hkeys : K.numPartitions ≤ K.keyMax) (hpartition : partition < K.numPartitions)
    (h : 0 ≤ random ∧ random ≤ K.keyMax) (hdrawn : (clusterRandomKey K random).isSome) :
    (clusterRandomKeyOnPartition K random partition).isSome := by
  obtain ⟨key, hkey⟩ := Option.isSome_iff_exists.mp hdrawn
  obtain ⟨key', hkey', -, -⟩ := clusterRandomKeyOnPartition_spec hkeys hpartition hkey
    (clusterRandomKey_le h hkey)
  rw [hkey']
  rfl

theorem clusterRandomKeyOnPartition_some {random : ℤ} {partition key : ℕ}
    (hkeys : K.numPartitions ≤ K.keyMax) (h : 0 ≤ random ∧ random ≤ K.keyMax)
    (hsome : clusterRandomKeyOnPartition K random partition = some key) :
    key ≤ K.keyMax ∧ K.partitionForKey key = partition := by
  have hpartition : partition < K.numPartitions := by
    by_contra hn
    rw [clusterRandomKeyOnPartition, if_neg hn] at hsome
    cases hsome
  cases hdrawn : clusterRandomKey K random with
  | none =>
    rw [clusterRandomKeyOnPartition, if_pos hpartition, hdrawn] at hsome
    cases hsome
  | some key₀ =>
    obtain ⟨key', hkey', hle, hmod⟩ := clusterRandomKeyOnPartition_spec hkeys hpartition hdrawn
      (clusterRandomKey_le h hdrawn)
    rw [hsome] at hkey'
    cases hkey'
    exact ⟨hle, hmod⟩

/-- One more request, in the same round or as the first of the next. -/
theorem round_succ {P n : ℕ} : n % (P + 1) < P ∧ (n + 1) % (P + 1) = n % (P + 1) + 1 ∧
      (n + 1) / (P + 1) = n / (P + 1) ∨
    n % (P + 1) = P ∧ (n + 1) % (P + 1) = 0 ∧ (n + 1) / (P + 1) = n / (P + 1) + 1 := by
  have hlt : n % (P + 1) < P + 1 := Nat.mod_lt n P.succ_pos
  have hdiv := Nat.div_add_mod n (P + 1)
  by_cases hlast : n % (P + 1) = P
  · refine .inr ⟨hlast, ?_, ?_⟩
    · rw [Nat.add_mod, hlast]
      rcases P with _ | P
      · rfl
      · rw [Nat.mod_eq_of_lt (by omega : 1 < P + 1 + 1), Nat.mod_self]
    · rw [Nat.succ_div_of_dvd]
      rw [hlast] at hdiv
      exact ⟨n / (P + 1) + 1, by rw [Nat.mul_add]; omega⟩
  · refine .inl ⟨by omega, ?_, ?_⟩
    · rw [← Nat.mod_add_mod, Nat.mod_eq_of_lt (by omega)]
    · rw [Nat.succ_div_of_not_dvd]
      intro hdvd
      have hmod := Nat.mod_eq_zero_of_dvd hdvd
      rw [← Nat.mod_add_mod, Nat.mod_eq_of_lt (by omega)] at hmod
      omega

/-- **A tick** makes the request that it is the turn of. -/
theorem getPutTick_some {g p n : ℕ} {draws : GetPutDraws} {st st' : GetPutState} {d : Decision}
    (hkeys : K.numPartitions ≤ K.keyMax) (hst : st.At K g p n)
    (hkey : 0 ≤ draws.key ∧ draws.key ≤ K.keyMax) (h : getPutTick K draws st = some (st', d)) :
    st'.At K g p (n + 1) ∧ IsGetPutRequest K g p n d := by
  have hP := K.numPartitions_pos
  have hPlt := K.numPartitions_lt
  unfold getPutTick at h
  rcases round_succ (P := K.numPartitions) (n := n) with ⟨hlt, hmod, hdiv⟩ | ⟨hlast, hmod, hdiv⟩
  · rw [if_neg (by rw [hst.count]; exact hlt.ne)] at h
    obtain ⟨key, hsome, heq⟩ := Option.map_eq_some_iff.mp h
    cases heq
    obtain ⟨hle, hpartition⟩ := clusterRandomKeyOnPartition_some hkeys hkey hsome
    rw [hst.get] at hpartition
    refine ⟨⟨?_, ?_, ?_⟩, key, hle, ?_, ?_⟩
    · rw [hmod, ← hst.count]
    · dsimp only
      rw [hst.get, incRange_mod hP hPlt, hmod, Nat.add_assoc g]
    · rw [hdiv]
      exact hst.put
    · rw [getPutPartition, if_pos hlt]
      exact hpartition
    · rw [if_pos hlt]
  · rw [if_pos (by rw [hst.count]; exact hlast)] at h
    obtain ⟨key, hsome, heq⟩ := Option.map_eq_some_iff.mp h
    cases heq
    obtain ⟨hle, hpartition⟩ := clusterRandomKeyOnPartition_some hkeys hkey hsome
    rw [hst.put] at hpartition
    refine ⟨⟨?_, ?_, ?_⟩, key, hle, ?_, ?_⟩
    · rw [hmod]
    · -- the GETs of a round end where they began
      dsimp only
      rw [hst.get, hlast, hmod, Nat.add_right_comm, Nat.add_mod_right, Nat.add_zero]
    · dsimp only
      rw [hst.put, incRange_mod hP hPlt, hdiv, Nat.add_assoc p]
    · rw [getPutPartition, if_neg (by omega)]
      exact hpartition
    · rw [if_neg (by omega)]
      exact ⟨draws.value, rfl⟩

/-- A tick fails only if no key can be drawn. -/
theorem getPutTick_isSome {g p n : ℕ} {draws : GetPutDraws} {st : GetPutState}
    (hkeys : K.numPartitions ≤ K.keyMax) (hst : st.At K g p n)
    (hkey : 0 ≤ draws.key ∧ draws.key ≤ K.keyMax) (hdrawn : (clusterRandomKey K draws.key).isSome) :
    (getPutTick K draws st).isSome := by
  have hP := K.numPartitions_pos
  unfold getPutTick
  split
  · rw [Option.isSome_map, hst.put]
    exact clusterRandomKeyOnPartition_isSome hkeys (Nat.mod_lt _ hP) hkey hdrawn
  · rw [Option.isSome_map, hst.get]
    exact clusterRandomKeyOnPartition_isSome hkeys (Nat.mod_lt _ hP) hkey hdrawn

/-- After a request there is an answer, and then a tick. -/
theorem getPutRr_run_succ {draws : ℕ → GetPutDraws} {g p n m : ℕ} {st : GetPutState} {d : Decision}
    (h : (getPutRr K).run draws n = some (st, d)) (hd : IsGetPutRequest K g p m d) :
    (getPutRr K).run draws (n + 2) = getPutTick K (draws (n + 2)) st := by
  have hanswer : (getPutRr K).run draws (n + 1) =
      some (st, .tick (getPutThinkingTime (draws (n + 1)) st)) := by
    obtain ⟨key, -, -, hd⟩ := hd
    rw [Workload.run, h, Option.bind_some]
    split at hd
    · rw [hd]
      rfl
    · obtain ⟨value, rfl⟩ := hd
      rfl
  rw [Workload.run, hanswer]
  rfl

section Run

variable {draws : ℕ → GetPutDraws} (hkeys : K.numPartitions ≤ K.keyMax)
  (hget : (draws 0).getCursor ≤ K.numPartitions) (hput : (draws 0).putCursor ≤ K.numPartitions)
  (hkey : ∀ n, 0 ≤ (draws n).key ∧ (draws n).key ≤ K.keyMax)

/-- The first state, whose cursors may be out of range. -/
theorem getPutState_start {v w : ℕ} (hv : v ≤ K.numPartitions) (hw : w ≤ K.numPartitions) :
    GetPutState.At K (min v (K.numPartitions - 1)) (min w (K.numPartitions - 1)) 0
      { lastGetPartition := v, lastPutPartition := w, numGetSincePut := 0,
        targetRequestTime := 0 } where
  count := (Nat.zero_mod _).symm
  get := by
    rw [Nat.zero_mod]
    exact incRange_cursor K.numPartitions_pos K.numPartitions_lt hv
  put := by
    rw [Nat.zero_div]
    exact incRange_cursor K.numPartitions_pos K.numPartitions_lt hw

theorem randomUint_eq {min max random v : ℕ} (h : randomUint min max random = some v) :
    v = random := by
  unfold randomUint at h
  split at h <;> cases h
  rfl

include hkeys hget hput hkey

/-- The requests of a run and the states after them. -/
theorem getPutRr_run {n : ℕ} {st : GetPutState} {d : Decision}
    (h : (getPutRr K).run draws (2 * n) = some (st, d)) :
    st.At K (min (draws 0).getCursor (K.numPartitions - 1))
        (min (draws 0).putCursor (K.numPartitions - 1)) (n + 1) ∧
      IsGetPutRequest K (min (draws 0).getCursor (K.numPartitions - 1))
        (min (draws 0).putCursor (K.numPartitions - 1)) n d := by
  induction n generalizing st d with
  | zero =>
    have hinit : getPutInit K (draws 0) = some (st, d) := h
    obtain ⟨v, hv, hinit⟩ := Option.bind_eq_some_iff.mp hinit
    obtain ⟨w, hw, htick⟩ := Option.bind_eq_some_iff.mp hinit
    rw [randomUint_eq hv, randomUint_eq hw] at htick
    exact getPutTick_some hkeys (getPutState_start hget hput) (hkey 0) htick
  | succ n ih =>
    cases hrun : (getPutRr K).run draws (2 * n) with
    | none =>
      rw [Nat.mul_succ, Workload.run, Workload.run, hrun] at h
      cases h
    | some x =>
      obtain ⟨hst, hd⟩ := ih hrun
      rw [Nat.mul_succ, getPutRr_run_succ hrun hd] at h
      exact getPutTick_some hkeys hst (hkey _) h

/-- The run goes on for ever, if keys and cursors can be drawn. -/
theorem getPutRr_run_isSome (hP : K.numPartitions ≤ intMax)
    (hmax : K.keyMax ≤ intMax ∨ K.keyMax = uintMax) (n : ℕ) :
    ((getPutRr K).run draws (2 * n)).isSome := by
  have hdrawn : ∀ random, (clusterRandomKey K random).isSome := by
    intro random
    unfold clusterRandomKey
    rcases hmax with hmax | hmax
    · rw [if_pos hmax, ite_self]
      rfl
    · rw [if_pos hmax]
      rfl
  induction n with
  | zero =>
    have hcursor : ∀ random, randomUint 0 K.numPartitions random = some random := fun random =>
      if_pos ⟨K.numPartitions_pos, hP⟩
    show (getPutInit K (draws 0)).isSome
    rw [getPutInit, hcursor, hcursor]
    exact getPutTick_isSome hkeys (getPutState_start hget hput) (hkey 0) (hdrawn _)
  | succ n ih =>
    obtain ⟨⟨st, d⟩, hrun⟩ := Option.isSome_iff_exists.mp ih
    obtain ⟨hst, hd⟩ := getPutRr_run hkeys hget hput hkey hrun
    rw [Nat.mul_succ, getPutRr_run_succ hrun hd]
    exact getPutTick_isSome hkeys hst (hkey _) (hdrawn _)

/-- The requests of a run. -/
theorem getPutRr_request {n : ℕ} {d : Decision} (h : (getPutRr K).request draws n = some d) :
    IsGetPutRequest K (min (draws 0).getCursor (K.numPartitions - 1))
      (min (draws 0).putCursor (K.numPartitions - 1)) n d := by
  obtain ⟨⟨st, d⟩, hrun, rfl⟩ := Option.map_eq_some_iff.mp h
  exact (getPutRr_run hkeys hget hput hkey hrun).2

end Run

/-- The requests after a PUT begin a round. -/
theorem round_after {P i : ℕ} (hi : i % (P + 1) = P) {a : ℕ} (ha : a ≤ P) :
    (i + 1 + a) % (P + 1) = a ∧ (i + 1 + a) / (P + 1) = i / (P + 1) + 1 := by
  have hdiv := Nat.div_add_mod i (P + 1)
  have hsum : i + 1 + a = (P + 1) * (i / (P + 1) + 1) + a := by
    rw [Nat.mul_add, Nat.mul_one]
    omega
  rw [hsum, Nat.mul_add_mod, Nat.mul_add_div P.succ_pos, Nat.mod_eq_of_lt (Nat.lt_succ_of_le ha),
    Nat.div_eq_of_lt (Nat.lt_succ_of_le ha)]
  exact ⟨rfl, rfl⟩

/-- A request is a PUT at the end of a round only. -/
theorem IsGetPutRequest.put {g p n key value : ℕ} (h : IsGetPutRequest K g p n (.put key value)) :
    n % (K.numPartitions + 1) = K.numPartitions ∧
      K.partitionForKey key = (p + n / (K.numPartitions + 1) + 1) % K.numPartitions := by
  have hlt : n % (K.numPartitions + 1) < K.numPartitions + 1 := Nat.mod_lt _ (Nat.succ_pos _)
  obtain ⟨key', -, hpartition, hd⟩ := h
  split at hd
  · cases hd
  · rename_i hlast
    obtain ⟨value', heq⟩ := hd
    cases heq
    rw [getPutPartition, if_neg hlast] at hpartition
    exact ⟨by omega, hpartition⟩

theorem IsGetPutRequest.get {g p n key : ℕ} (h : IsGetPutRequest K g p n (.get key)) :
    K.partitionForKey key = (g + n % (K.numPartitions + 1) + 1) % K.numPartitions := by
  obtain ⟨key', -, hpartition, hd⟩ := h
  split at hd
  · rename_i hlt
    cases hd
    rwa [getPutPartition, if_pos hlt] at hpartition
  · obtain ⟨value, heq⟩ := hd
    cases heq

/-- Remainders of different numbers in a row. -/
theorem add_mod_ne {P x a b : ℕ} (hab : a < b) (hb : b < P) : (x + a) % P ≠ (x + b) % P := by
  intro h
  have hmod : x + a ≡ x + b [MOD P] := h
  have heq := Nat.ModEq.eq_of_lt_of_lt (Nat.ModEq.add_left_cancel' x hmod) (hab.trans hb) hb
  omega

/-- **The workload `get_put_rr`**, with uniform keys: between two consecutive PUTs there is one GET
for every partition, consecutive PUTs go to consecutive partitions, all keys are in range, and the
last assertion of the generator never fails. -/
theorem get_put_rr_cycle (K : KeyConfig) (hkeys : K.numPartitions ≤ K.keyMax)
    (draws : ℕ → GetPutDraws) (hget : (draws 0).getCursor ≤ K.numPartitions)
    (hput : (draws 0).putCursor ≤ K.numPartitions)
    (hkey : ∀ n, 0 ≤ (draws n).key ∧ (draws n).key ≤ K.keyMax) :
    (∀ i j k v k' v', i < j → (getPutRr K).request draws i = some (.put k v) →
      (getPutRr K).request draws j = some (.put k' v') →
      (∀ n k v, i < n → n < j → (getPutRr K).request draws n ≠ some (.put k v)) →
        j = i + K.numPartitions + 1 ∧
        (∀ n, i < n → n < j → ∃ k, (getPutRr K).request draws n = some (.get k)) ∧
        (∀ m n k k', i < m → m < n → n < j → (getPutRr K).request draws m = some (.get k) →
          (getPutRr K).request draws n = some (.get k') →
            K.partitionForKey k ≠ K.partitionForKey k') ∧
        K.partitionForKey k' = (K.partitionForKey k + 1) % K.numPartitions) ∧
    (∀ n k, (getPutRr K).request draws n = some (.get k) → k ≤ K.keyMax) ∧
    (∀ n k v, (getPutRr K).request draws n = some (.put k v) → k ≤ K.keyMax) ∧
    (∀ n partition, partition < K.numPartitions → (clusterRandomKey K (draws n).key).isSome →
      (clusterRandomKeyOnPartition K (draws n).key partition).isSome) ∧
    (K.numPartitions ≤ intMax → K.keyMax ≤ intMax ∨ K.keyMax = uintMax →
      ∀ n, ((getPutRr K).request draws n).isSome) := by
  have hrequest : ∀ {n d}, (getPutRr K).request draws n = some d → IsGetPutRequest K _ _ n d :=
    fun h => getPutRr_request hkeys hget hput hkey h
  refine ⟨?_, ?_, ?_, ?_, ?_⟩
  · intro i j k v k' v' hij hi hj hnone
    obtain ⟨himod, hipart⟩ := (hrequest hi).put
    obtain ⟨hjmod, hjpart⟩ := (hrequest hj).put
    -- all requests before the second PUT are made
    have hsome : ∀ n < j, ∃ d, (getPutRr K).request draws n = some d := by
      intro n hn
      have hj' : ((getPutRr K).run draws (2 * j)).isSome := by
        obtain ⟨x, hx, -⟩ := Option.map_eq_some_iff.mp hj
        rw [hx]
        rfl
      obtain ⟨x, hx⟩ := Option.isSome_iff_exists.mp
        (Workload.run_isSome (Nat.mul_le_mul_left 2 hn.le) hj')
      exact ⟨x.2, Option.map_eq_some_iff.mpr ⟨x, hx, rfl⟩⟩
    have hround : j = i + K.numPartitions + 1 := by
      rcases lt_trichotomy j (i + K.numPartitions + 1) with hlt | heq | hgt
      · have hmod := (round_after himod (a := j - (i + 1)) (by omega)).1
        rw [Nat.add_sub_cancel' hij, hjmod] at hmod
        omega
      · exact heq
      · obtain ⟨d, hd⟩ := hsome _ hgt
        have hmod := (round_after himod (a := K.numPartitions) le_rfl).1
        rw [Nat.add_right_comm] at hmod
        obtain ⟨key, -, -, hput⟩ := hrequest hd
        rw [if_neg (by omega)] at hput
        obtain ⟨value, rfl⟩ := hput
        exact absurd hd (hnone _ key value (by omega) hgt)
    refine ⟨hround, ?_, ?_, ?_⟩
    · intro n hin hnj
      obtain ⟨d, hd⟩ := hsome n hnj
      have hmod := (round_after himod (a := n - (i + 1)) (by omega)).1
      rw [Nat.add_sub_cancel' hin] at hmod
      obtain ⟨key, -, -, hgetd⟩ := hrequest hd
      rw [if_pos (by omega)] at hgetd
      exact ⟨key, hgetd ▸ hd⟩
    · intro m n k k' him hmn hnj hm hn
      have hmmod := (round_after himod (a := m - (i + 1)) (by omega)).1
      have hnmod := (round_after himod (a := n - (i + 1)) (by omega)).1
      rw [Nat.add_sub_cancel' him] at hmmod
      rw [Nat.add_sub_cancel' (him.trans hmn)] at hnmod
      rw [(hrequest hm).get, (hrequest hn).get, hmmod, hnmod, Nat.add_right_comm,
        Nat.add_right_comm _ (n - (i + 1))]
      exact add_mod_ne (by omega) (by omega)
    · have hdiv := (round_after himod (a := K.numPartitions) le_rfl).2
      rw [Nat.add_right_comm, ← hround] at hdiv
      rw [hipart, hjpart, hdiv, Nat.mod_add_mod, Nat.add_assoc _ (i / _)]
  · intro n k h
    obtain ⟨key, hle, -, hd⟩ := hrequest h
    split at hd
    · cases hd
      exact hle
    · obtain ⟨value, heq⟩ := hd
      cases heq
  · intro n k v h
    obtain ⟨key, hle, -, hd⟩ := hrequest h
    split at hd
    · cases hd
    · obtain ⟨value, heq⟩ := hd
      cases heq
      exact hle
  · exact fun n partition hpartition hdrawn =>
      clusterRandomKeyOnPartition_isSome hkeys hpartition (hkey n) hdrawn
  · intro hP hmax n
    rw [Workload.request, Option.isSome_map]
    exact getPutRr_run_isSome hkeys hget hput hkey hP hmax n

end GetPutRr

/-- Every key that is drawn is 0; the cursor of the GETs starts out of range. -/
def zeroDraws : GetPutDraws := ⟨2, 0, 0, 3, 1, 0⟩

theorem get_put_rr_cycle_two :
    (getPutRr twoPartitionKeys).request (fun _ => zeroDraws) 2 = some (.put 1 3) ∧
      (getPutRr twoPartitionKeys).request (fun _ => zeroDraws) 5 = some (.put 0 3) ∧
      twoPartitionKeys.partitionForKey 0 =
        (twoPartitionKeys.partitionForKey 1 + 1) % twoPartitionKeys.numPartitions := by
  have hfirst : (getPutRr twoPartitionKeys).request (fun _ => zeroDraws) 2 = some (.put 1 3) := by
    decide +kernel
  have hsecond : (getPutRr twoPartitionKeys).request (fun _ => zeroDraws) 5 = some (.put 0 3) := by
    decide +kernel
  have hthree : (getPutRr twoPartitionKeys).request (fun _ => zeroDraws) 3 = some (.get 0) := by
    decide +kernel
  have hfour : (getPutRr twoPartitionKeys).request (fun _ => zeroDraws) 4 = some (.get 1) := by
    decide +kernel
  refine ⟨hfirst, hsecond, ((get_put_rr_cycle twoPartitionKeys (by decide) (fun _ => zeroDraws)
    (by decide) (by decide) (fun _ => by decide)).1 2 5 1 3 0 3 (by decide) hfirst hsecond
    ?_).2.2.2⟩
  intro n k v hlt hgt hn
  rcases (by omega : n = 3 ∨ n = 4) with rfl | rfl
  · rw [hthree] at hn
    cases hn
  · rw [hfour] at hn
    cases hn

/-! ## 3. `rotx_put_rr` -/

/-- The parameters of the workload, and the number of partitions. -/
structure RotxPutConfig where
  keysPerRotx : ℕ
  numRotx : ℕ
  numPut : ℕ
  numPartitions : ℕ
  keysPerRotx_pos : 0 < keysPerRotx
  numRotx_pos : 0 < numRotx
  numPut_pos : 0 < numPut
  numPartitions_pos : 0 < numPartitions
  keysPerRotx_lt : keysPerRotx < uintSize
  numRotx_lt : numRotx < uintSize
  numPut_lt : numPut < uintSize
  numPartitions_lt : numPartitions < uintSize

/-- `enum state_enum`. -/
inductive RotxPutPhase
  | sleeping
  | waitingPutResponse
  | waitingRotxResponse
  deriving DecidableEq

/-- `struct state`. -/
structure RotxPutState where
  state : RotxPutPhase
  rotxPartition : ℕ
  putPartition : ℕ
  rotxCount : ℕ
  putCount : ℕ

/-- What a call may draw: the cursor, the keys (the `i`-th of the call, on a partition), a value and
the thinking time. -/
structure RotxPutDraws where
  cursor : ℕ
  key : ℕ → ℕ → ℕ
  value : ℕ
  clientThinkingTime : ℚ

section RotxPutRr

variable (W : RotxPutConfig)

/-- The loop of `do_rotx`, with `n` keys to go: the keys and the cursor. -/
def rotxKeys (key : ℕ → ℕ → ℕ) (i partition : ℕ) : ℕ → List ℕ × ℕ
  | 0 => ([], partition)
  | n + 1 =>
    let rest := rotxKeys key (i + 1) (incRange partition 0 (W.numPartitions - 1)) n
    (key i partition :: rest.1, rest.2)

/-- `do_rotx`. -/
def doRotx (draws : RotxPutDraws) (st : RotxPutState) : RotxPutState × Decision :=
  let keys := rotxKeys W draws.key 0 st.rotxPartition W.keysPerRotx
  ({ st with rotxPartition := keys.2 }, .rotx keys.1)

/-- `do_put`. -/
def doPut (draws : RotxPutDraws) (st : RotxPutState) : RotxPutState × Decision :=
  ({ st with putPartition :=
      if st.putPartition = 0 then W.numPartitions - 1 else st.putPartition - 1 },
    .put (draws.key 0 st.putPartition) draws.value)

/-- `on_tick`, between its assertions. -/
def rotxPutDo (draws : RotxPutDraws) (st : RotxPutState) : RotxPutState × Decision :=
  if st.rotxCount < W.numRotx then
    let (st, request) := doRotx W draws st
    ({ st with rotxCount := (st.rotxCount + 1) % uintSize, state := .waitingRotxResponse }, request)
  else
    let (st, request) := doPut W draws st
    let st := { st with putCount := (st.putCount + 1) % uintSize, state := .waitingPutResponse }
    if st.putCount < W.numPut then ({ st with putCount := 0, rotxCount := 0 }, request)
    else (st, request)

/-- `on_tick`. -/
def rotxPutTick (draws : RotxPutDraws) (st : RotxPutState) : Option (RotxPutState × Decision) :=
  if st.state = .sleeping ∧ st.rotxPartition < W.numPartitions then
    let (st, request) := rotxPutDo W draws st
    if st.rotxPartition < W.numPartitions then some (st, request) else none
  else none

/-- `on_init`. -/
def rotxPutInit (draws : RotxPutDraws) : Option (RotxPutState × Decision) :=
  (randomUint 0 (W.numPartitions - 1) draws.cursor).bind fun rotxPartition =>
    if 0 < W.keysPerRotx then
      rotxPutTick W draws
        { state := .sleeping, rotxPartition := rotxPartition, putPartition := 0
          rotxCount := 0, putCount := 0 }
    else none

/-- `workload_rotx_put_rr_funcs`. -/
def rotxPutRr : Workload RotxPutState RotxPutDraws where
  onInit := rotxPutInit W
  onTick := rotxPutTick W
  onGetResponse _ _ := none
  onPutResponse draws st :=
    if st.state = .waitingPutResponse then
      some ({ st with state := .sleeping }, .tick draws.clientThinkingTime)
    else none
  onRotxResponse draws st :=
    if st.state = .waitingRotxResponse then
      some ({ st with state := .sleeping }, .tick draws.clientThinkingTime)
    else none

/-- The partitions of the keys of a ROTX. -/
def keyPartitions (keys : List ℕ) : List ℕ := keys.map (· % W.numPartitions)

/-- What the workload is meant to do: `num_rotx` ROTXs, each on as many partitions as it can be, one
after the other, and then `num_put` PUTs, on different partitions if there are enough, again and
again. -/
structure RotxPutCycles (requests : ℕ → Option Decision) : Prop where
  rotx : ∀ n, n % (W.numRotx + W.numPut) < W.numRotx → ∃ keys first, requests n = some (.rotx keys) ∧
    keys.length = W.keysPerRotx ∧
    (∀ i < W.keysPerRotx, (keyPartitions W keys)[i]? = some ((first + i) % W.numPartitions)) ∧
    (keyPartitions W keys).toFinset.card = min W.keysPerRotx W.numPartitions
  put : ∀ n, W.numRotx ≤ n % (W.numRotx + W.numPut) → ∃ key value,
    requests n = some (.put key value)
  apart : W.numPut ≤ W.numPartitions → ∀ m n k k' v v', m < n →
    n / (W.numRotx + W.numPut) = m / (W.numRotx + W.numPut) →
      requests m = some (.put k v) → requests n = some (.put k' v') →
        k % W.numPartitions ≠ k' % W.numPartitions

/-- How many PUTs the workload does in a row.  If it is meant to do one, it goes on until the counter
wraps. -/
def putsInARow : ℕ := if W.numPut = 1 then uintSize else 1

/-- The length of what it repeats. -/
def cycleLength : ℕ := W.numRotx + putsInARow W

variable {W}

theorem putsInARow_pos : 0 < putsInARow W := by
  unfold putsInARow
  split
  · exact Nat.two_pow_pos 32
  · exact Nat.one_pos

/-- The counters before a request. -/
structure RotxPutState.At (W : RotxPutConfig) (n : ℕ) (st : RotxPutState) : Prop where
  rotxCount : st.rotxCount = min (n % cycleLength W) W.numRotx
  putCount : st.putCount = n % cycleLength W - W.numRotx

theorem cycle_succ {C n : ℕ} (hC : 0 < C) :
    n % C + 1 < C ∧ (n + 1) % C = n % C + 1 ∨ n % C + 1 = C ∧ (n + 1) % C = 0 := by
  obtain ⟨P, rfl⟩ := Nat.exists_eq_succ_of_ne_zero hC.ne'
  rcases round_succ (P := P) (n := n) with ⟨hlt, hmod, -⟩ | ⟨hlast, hmod, -⟩
  · exact .inl ⟨Nat.succ_lt_succ hlt, hmod⟩
  · exact .inr ⟨congrArg Nat.succ hlast, hmod⟩

/-- The loop goes round the partitions. -/
theorem rotxKeys_spec {key : ℕ → ℕ → ℕ} (hkey : ∀ i p, p < W.numPartitions →
      key i p % W.numPartitions = p) (i first n : ℕ) :
    keyPartitions W (rotxKeys W key i (first % W.numPartitions) n).1 =
        (List.range' first n).map (· % W.numPartitions) ∧
      (rotxKeys W key i (first % W.numPartitions) n).2 = (first + n) % W.numPartitions := by
  have hP := W.numPartitions_pos
  induction n generalizing i first with
  | zero => exact ⟨rfl, rfl⟩
  | succ n ih =>
    obtain ⟨hkeys, hcursor⟩ := ih (i + 1) (first + 1)
    unfold rotxKeys
    dsimp only
    rw [incRange_mod hP W.numPartitions_lt]
    constructor
    · rw [keyPartitions, List.map_cons, hkey i _ (Nat.mod_lt _ hP), List.range'_succ, List.map_cons,
        ← hkeys]
      rfl
    · rw [hcursor, Nat.add_right_comm]
      rfl

/-- Partitions in a row are different, or they are all there are. -/
theorem card_row {P : ℕ} (hP : 0 < P) (first n : ℕ) :
    ((List.range' first n).map (· % P)).toFinset.card = min n P := by
  have hnodup : ∀ m ≤ P, ((List.range' first m).map (· % P)).Nodup := by
    intro m hm
    refine List.Nodup.map_on ?_ List.nodup_range'
    intro a ha b hb hab
    rw [List.mem_range'_1] at ha hb
    by_contra hne
    rcases lt_or_gt_of_ne hne with hlt | hlt
    · have := add_mod_ne (P := P) (x := first) (a := a - first) (b := b - first) (by omega) (by omega)
      rw [Nat.add_sub_cancel' ha.1, Nat.add_sub_cancel' hb.1] at this
      exact this hab
    · have := add_mod_ne (P := P) (x := first) (a := b - first) (b := a - first) (by omega) (by omega)
      rw [Nat.add_sub_cancel' ha.1, Nat.add_sub_cancel' hb.1] at this
      exact this hab.symm
  by_cases hn : n ≤ P
  · rw [List.toFinset_card_of_nodup (hnodup n hn), List.length_map, List.length_range',
      min_eq_left hn]
  · rw [min_eq_right (by omega)]
    refine le_antisymm ?_ ?_
    · refine (Finset.card_le_card (t := Finset.range P) fun x hx => ?_).trans
        (Finset.card_range P).le
      obtain ⟨a, -, rfl⟩ := List.mem_map.mp (List.mem_toFinset.mp hx)
      exact Finset.mem_range.mpr (Nat.mod_lt _ hP)
    · have hcard := List.toFinset_card_of_nodup (hnodup P le_rfl)
      rw [List.length_map, List.length_range'] at hcard
      refine hcard.symm.le.trans (Finset.card_le_card ?_)
      intro x hx
      obtain ⟨a, ha, rfl⟩ := List.mem_map.mp (List.mem_toFinset.mp hx)
      rw [List.mem_range'_1] at ha
      exact List.mem_toFinset.mpr (List.mem_map.mpr ⟨a, List.mem_range'_1.mpr (by omega), rfl⟩)

/-- What is waited for after a request. -/
def RotxPutPhase.after : Decision → RotxPutPhase
  | .rotx _ => .waitingRotxResponse
  | _ => .waitingPutResponse

/-- A request as the workload makes it. -/
def IsRotxPutRequest (W : RotxPutConfig) (n : ℕ) (d : Decision) : Prop :=
  if n % cycleLength W < W.numRotx then ∃ keys, d = .rotx keys else ∃ key value, d = .put key value

/-- **A tick** counts the request that it makes. -/
theorem rotxPutTick_some {n : ℕ} {draws : RotxPutDraws} {st st' : RotxPutState} {d : Decision}
    (hst : st.At W n) (h : rotxPutTick W draws st = some (st', d)) :
    st'.At W (n + 1) ∧ IsRotxPutRequest W n d ∧
      st'.state = .after d := by
  have hputs : 0 < putsInARow W := putsInARow_pos
  have hC : cycleLength W = W.numRotx + putsInARow W := rfl
  have hlt : n % cycleLength W < cycleLength W := Nat.mod_lt _ (by omega)
  have hsucc := cycle_succ (n := n) (show 0 < cycleLength W by omega)
  have hrotxlt := W.numRotx_lt
  unfold rotxPutTick at h
  split at h
  · unfold rotxPutDo at h
    rw [hst.rotxCount] at h
    by_cases hrotx : n % cycleLength W < W.numRotx
    · rw [if_pos (by omega)] at h
      dsimp only at h
      split at h <;> cases h
      refine ⟨⟨?_, ?_⟩, ?_, rfl⟩
      · show (st.rotxCount + 1) % uintSize = _
        rw [hst.rotxCount, Nat.mod_eq_of_lt (by omega)]
        omega
      · show st.putCount = _
        rw [hst.putCount]
        omega
      · rw [IsRotxPutRequest, if_pos hrotx]
        exact ⟨_, rfl⟩
    · rw [if_neg (by omega)] at h
      dsimp only [doPut] at h
      have hkind : IsRotxPutRequest W n (.put (draws.key 0 st.putPartition) draws.value) := by
        rw [IsRotxPutRequest, if_neg hrotx]
        exact ⟨_, _, rfl⟩
      rw [hst.putCount] at h
      by_cases hreset : (n % cycleLength W - W.numRotx + 1) % uintSize < W.numPut
      · -- the counters are reset, at the end of what is repeated
        rw [if_pos hreset] at h
        dsimp only at h
        split at h <;> cases h
        have hlast : (n + 1) % cycleLength W = 0 := by
          by_contra hne
          have hputlt := W.numPut_lt
          unfold putsInARow at hC
          split at hC
          · rename_i hone
            rw [hone, Nat.mod_eq_of_lt (by omega)] at hreset
            omega
          · omega
        refine ⟨⟨?_, ?_⟩, hkind, rfl⟩
        · rw [hlast, Nat.zero_min]
        · rw [hlast, Nat.zero_sub]
      · rw [if_neg hreset] at h
        dsimp only at h
        split at h <;> cases h
        have hone : W.numPut = 1 := by
          by_contra hone
          rw [putsInARow, if_neg hone] at hC
          have hpos := W.numPut_pos
          rw [show n % cycleLength W - W.numRotx + 1 = 1 by omega,
            Nat.mod_eq_of_lt (by decide)] at hreset
          omega
        rw [putsInARow, if_pos hone] at hC
        rw [hone] at hreset
        have hnext : n % cycleLength W - W.numRotx + 1 < uintSize := by
          by_contra hge
          rw [show n % cycleLength W - W.numRotx + 1 = uintSize by omega, Nat.mod_self] at hreset
          exact hreset Nat.one_pos
        refine ⟨⟨?_, ?_⟩, hkind, rfl⟩
        · show st.rotxCount = _
          rw [hst.rotxCount]
          omega
        · dsimp only
          rw [Nat.mod_eq_of_lt hnext]
          omega
  · cases h

/-- After a request there is an answer, and then a tick. -/
theorem rotxPutRr_run_succ {draws : ℕ → RotxPutDraws} {n m : ℕ} {st : RotxPutState} {d : Decision}
    (h : (rotxPutRr W).run draws n = some (st, d)) (hd : IsRotxPutRequest W m d)
    (hstate : st.state = .after d) :
    (rotxPutRr W).run draws (n + 2) =
      rotxPutTick W (draws (n + 2)) { st with state := .sleeping } := by
  have hanswer : (rotxPutRr W).run draws (n + 1) =
      some ({ st with state := .sleeping }, .tick (draws (n + 1)).clientThinkingTime) := by
    rw [Workload.run, h, Option.bind_some]
    unfold IsRotxPutRequest at hd
    split at hd
    · obtain ⟨keys, rfl⟩ := hd
      exact if_pos hstate
    · obtain ⟨key, value, rfl⟩ := hd
      exact if_pos hstate
  rw [Workload.run, hanswer]
  rfl

/-- The requests of a run, and the states after them. -/
theorem rotxPutRr_run {draws : ℕ → RotxPutDraws} {n : ℕ} {st : RotxPutState} {d : Decision}
    (h : (rotxPutRr W).run draws (2 * n) = some (st, d)) :
    st.At W (n + 1) ∧ IsRotxPutRequest W n d ∧ st.state = .after d := by
  induction n generalizing st d with
  | zero =>
    have hinit : rotxPutInit W (draws 0) = some (st, d) := h
    obtain ⟨first, -, hinit⟩ := Option.bind_eq_some_iff.mp hinit
    rw [if_pos W.keysPerRotx_pos] at hinit
    have hstart : RotxPutState.At W 0
        { state := .sleeping, rotxPartition := first, putPartition := 0
          rotxCount := 0, putCount := 0 } := by
      constructor
      · rw [Nat.zero_mod, Nat.zero_min]
      · rw [Nat.zero_mod, Nat.zero_sub]
    exact rotxPutTick_some hstart hinit
  | succ n ih =>
    cases hrun : (rotxPutRr W).run draws (2 * n) with
    | none =>
      rw [Nat.mul_succ, Workload.run, Workload.run, hrun] at h
      cases h
    | some x =>
      obtain ⟨hst, hd, hstate⟩ := ih hrun
      rw [Nat.mul_succ, rotxPutRr_run_succ hrun hd hstate] at h
      have hawake : RotxPutState.At W (n + 1) { x.1 with state := .sleeping } :=
        ⟨hst.rotxCount, hst.putCount⟩
      exact rotxPutTick_some hawake h

/-- **What the workload `rotx_put_rr` asks for**: `num_rotx` ROTXs and then one PUT, or 2^32 PUTs if
it is configured to do one. -/
theorem rotxPutRr_request {draws : ℕ → RotxPutDraws} {n : ℕ} {d : Decision}
    (h : (rotxPutRr W).request draws n = some d) : IsRotxPutRequest W n d := by
  obtain ⟨⟨st, d⟩, hrun, rfl⟩ := Option.map_eq_some_iff.mp h
  exact (rotxPutRr_run hrun).2.1

/-- The keys of a ROTX are on as many partitions as they can be. -/
theorem doRotx_covers {draws : RotxPutDraws} {st : RotxPutState}
    (hkey : ∀ i p, p < W.numPartitions → draws.key i p % W.numPartitions = p)
    (hcursor : st.rotxPartition < W.numPartitions) :
    ∃ keys, (doRotx W draws st).2 = .rotx keys ∧
      keyPartitions W keys =
        (List.range' st.rotxPartition W.keysPerRotx).map (· % W.numPartitions) ∧
      (keyPartitions W keys).toFinset.card = min W.keysPerRotx W.numPartitions := by
  obtain ⟨hkeys, -⟩ := rotxKeys_spec hkey 0 st.rotxPartition W.keysPerRotx
  rw [Nat.mod_eq_of_lt hcursor] at hkeys
  exact ⟨_, rfl, hkeys, hkeys ▸ card_row W.numPartitions_pos _ _⟩

/-- **The workload `rotx_put_rr` never does what it is meant to**, whatever it is configured to do. -/
theorem rotx_put_rr_never_cycles (W : RotxPutConfig) (draws : ℕ → RotxPutDraws) :
    ¬RotxPutCycles W ((rotxPutRr W).request draws) := by
  intro h
  have hrotx := W.numRotx_pos
  have hput := W.numPut_pos
  by_cases hone : W.numPut = 1
  · -- after the PUT there should be a ROTX again
    have hC : cycleLength W = W.numRotx + uintSize := by rw [cycleLength, putsInARow, if_pos hone]
    obtain ⟨keys, -, hrequest, -⟩ := h.rotx (W.numRotx + 1) (by rw [hone, Nat.mod_self]; exact hrotx)
    have hkind := rotxPutRr_request hrequest
    have hsize : 1 < uintSize := by decide
    rw [IsRotxPutRequest, hC, Nat.mod_eq_of_lt (by omega), if_neg (by omega)] at hkind
    obtain ⟨key, value, heq⟩ := hkind
    cases heq
  · -- after the PUT there should be another one
    have hC : cycleLength W = W.numRotx + 1 := by rw [cycleLength, putsInARow, if_neg hone]
    obtain ⟨key, value, hrequest⟩ := h.put (W.numRotx + 1) (by
      rw [Nat.mod_eq_of_lt (by omega)]
      omega)
    have hkind := rotxPutRr_request hrequest
    rw [IsRotxPutRequest, hC, Nat.mod_self, if_pos hrotx] at hkind
    obtain ⟨keys, heq⟩ := hkind
    cases heq

theorem one_count_lt : 1 < uintSize := by
  decide

theorem two_count_lt : 2 < uintSize := by
  decide

/-- Two partitions; one ROTX with one key, then two PUTs. -/
def twoPuts : RotxPutConfig :=
  ⟨1, 1, 2, 2, Nat.one_pos, Nat.one_pos, Nat.two_pos, Nat.two_pos, one_count_lt,
    one_count_lt, two_count_lt, two_count_lt⟩

def partitionDraws : RotxPutDraws := ⟨0, fun _ partition => partition, 3, 1⟩

/-- The second PUT is left out. -/
theorem rotx_put_rr_skips :
    (rotxPutRr twoPuts).request (fun _ => partitionDraws) 0 = some (.rotx [0]) ∧
      (rotxPutRr twoPuts).request (fun _ => partitionDraws) 1 = some (.put 0 3) ∧
      (rotxPutRr twoPuts).request (fun _ => partitionDraws) 2 = some (.rotx [1]) ∧
      ¬RotxPutCycles twoPuts ((rotxPutRr twoPuts).request fun _ => partitionDraws) := by
  have hthird : (rotxPutRr twoPuts).request (fun _ => partitionDraws) 2 = some (.rotx [1]) := by
    decide +kernel
  refine ⟨by decide +kernel, by decide +kernel, hthird, fun h => ?_⟩
  obtain ⟨key, value, hrequest⟩ := h.put 2 (by decide)
  rw [hthird] at hrequest
  cases hrequest

end RotxPutRr

end CCSim
