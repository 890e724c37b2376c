/-
# The statistics of a CPU

`cpu/stats.c` keeps for every CPU the time it was busy, the same by type of event together with
the number of events of that type, and samples of the length of the CPU queue.

The arrays by type grow when a type comes that does not fit.  They get room for `type + 1`
entries, and the new ones are set to zero, but `num_event_types` becomes `type`: the entry of
`type` itself is not reported, and it counts as new the next time the arrays grow.  So a type has
the right entries exactly if a greater one came before it did (`cpuStats_by_event_type`); the
total is always right.
-/
import Mathlib.Data.Rat.Init
import Mathlib.Algebra.Order.Field.Rat
import Mathlib.Algebra.BigOperators.Group.List.Lemmas
import Mathlib.Tactic.Linarith

namespace CCSim

/-! ## 1. The functions of `cpu/stats.c` -/

/-- `struct cpu_stats`.  The arrays by type are functions; entries from `numEventTypes + 1` on are
not allocated. -/
structure CpuStats where
  busyTime : ℚ := 0
  numEventTypes : ℕ := 0
  byEventTypeBusyTime : ℕ → ℚ := fun _ => 0
  byEventTypeCount : ℕ → ℤ := fun _ => 0
  queueSizeSamples : List ℕ := []
  maxQueueSizeSamples : List ℕ := []
  maxQueueSize : ℕ := 0

/-- An `int`, which wraps around. -/
def wrapInt (n : ℤ) : ℤ := n.bmod (2 ^ 32)

/-- `cpu_stats_update`; `size` is the length of the CPU queue. -/
def cpuStatsUpdate (stats : CpuStats) (size : ℕ) : CpuStats :=
  { stats with
    queueSizeSamples := stats.queueSizeSamples ++ [size]
    maxQueueSizeSamples := stats.maxQueueSizeSamples ++ [stats.maxQueueSize]
    maxQueueSize := 0 }

/-- The arrays by type get room for `type + 1` entries. -/
def CpuStats.grow (stats : CpuStats) (type : ℕ) : CpuStats :=
  let fresh i := stats.numEventTypes ≤ i ∧ i < type + 1
  { stats with
    byEventTypeBusyTime := fun i => if fresh i then 0 else stats.byEventTypeBusyTime i
    byEventTypeCount := fun i => if fresh i then 0 else stats.byEventTypeCount i
    numEventTypes := type }

/-- `cpu_stats_event_processed`.  A type is an enumerator of `event.h`, so `type + 1` does not
wrap around. -/
def cpuStatsEventProcessed (stats : CpuStats) (elapsedTime : ℚ) (type : ℕ) : CpuStats :=
  let stats := { stats with busyTime := stats.busyTime + elapsedTime }
  let stats := if stats.numEventTypes ≤ type then stats.grow type else stats
  { stats with
    byEventTypeBusyTime := Function.update stats.byEventTypeBusyTime type
      (stats.byEventTypeBusyTime type + elapsedTime)
    byEventTypeCount := Function.update stats.byEventTypeCount type
      (wrapInt (stats.byEventTypeCount type + 1)) }

/-- What is reported of a type of events, besides the averages that follow from it. -/
structure EventTypeOutput where
  type : ℕ
  usage : ℚ
  events : ℤ

/-- `cpu_stats_output`: the usage of the CPU, and what there is to report by type. -/
def cpuStatsOutput (stats : CpuStats) (now : ℚ) : ℚ × List EventTypeOutput :=
  (stats.busyTime / now,
    ((List.range stats.numEventTypes).filter fun i => 0 < stats.byEventTypeBusyTime i).map
      fun i => ⟨i, stats.byEventTypeBusyTime i / now, stats.byEventTypeCount i⟩)

/-- A type is reported if its entry is below `numEventTypes` and its events took time. -/
theorem mem_cpuStatsOutput (stats : CpuStats) (now : ℚ) (type : ℕ) :
    (∃ x ∈ (cpuStatsOutput stats now).2, x.type = type) ↔
      type < stats.numEventTypes ∧ 0 < stats.byEventTypeBusyTime type := by
  simp [cpuStatsOutput]

/-! ## 2. Sequences of calls -/

/-- The statistics after these calls of `cpu_stats_event_processed`, each a type and the elapsed
time. -/
def cpuStatsAll (calls : List (ℕ × ℚ)) : CpuStats :=
  calls.foldl (fun stats call => cpuStatsEventProcessed stats call.2 call.1) {}

/-- The times of the calls for one type. -/
def timesOf (type : ℕ) (calls : List (ℕ × ℚ)) : List ℚ :=
  (calls.filter fun call => call.1 = type).map Prod.snd

/-- The entries for a type are those one expects, and they are reported. -/
structure CpuStats.Right (stats : CpuStats) (calls : List (ℕ × ℚ)) (type : ℕ) : Prop where
  count : stats.byEventTypeCount type = (timesOf type calls).length
  busyTime : stats.byEventTypeBusyTime type = (timesOf type calls).sum
  reported : type < stats.numEventTypes

/-- A call for a greater type came before the first one for this type. -/
def Outgrown (type : ℕ) (calls : List (ℕ × ℚ)) : Prop :=
  ∃ before call after, calls = before ++ call :: after ∧ type < call.1 ∧ timesOf type before = []

variable {calls : List (ℕ × ℚ)} {call : ℕ × ℚ} {type : ℕ}

theorem cpuStatsAll_append (calls : List (ℕ × ℚ)) (call : ℕ × ℚ) :
    cpuStatsAll (calls ++ [call]) =
      cpuStatsEventProcessed (cpuStatsAll calls) call.2 call.1 := by
  rw [cpuStatsAll, List.foldl_append]
  rfl

theorem timesOf_append (type : ℕ) (calls : List (ℕ × ℚ)) (call : ℕ × ℚ) :
    timesOf type (calls ++ [call]) =
      timesOf type calls ++ if call.1 = type then [call.2] else [] := by
  by_cases h : call.1 = type <;> simp [timesOf, h]

/-- A further call comes after everything else. -/
theorem outgrown_append : Outgrown type (calls ++ [call]) ↔
    Outgrown type calls ∨ type < call.1 ∧ timesOf type calls = [] := by
  constructor
  · rintro ⟨before, call', after, heq, hlt, hnone⟩
    rcases List.eq_nil_or_concat after with rfl | ⟨after', last, rfl⟩
    · obtain ⟨rfl, h⟩ := List.append_inj' heq rfl
      cases h
      exact .inr ⟨hlt, hnone⟩
    · left
      rw [List.concat_eq_append, ← List.cons_append, ← List.append_assoc] at heq
      exact ⟨before, call', after', (List.append_inj' heq rfl).1, hlt, hnone⟩
  · rintro (⟨before, call', after, rfl, hlt, hnone⟩ | ⟨hlt, hnone⟩)
    · exact ⟨before, call', after ++ [call], by simp, hlt, hnone⟩
    · exact ⟨calls, call, [], rfl, hlt, hnone⟩

/-- Every call adds its time to the total. -/
theorem foldl_busyTime (calls : List (ℕ × ℚ)) (stats : CpuStats) :
    (calls.foldl (fun stats call => cpuStatsEventProcessed stats call.2 call.1) stats).busyTime =
      stats.busyTime + (calls.map Prod.snd).sum := by
  induction calls generalizing stats with
  | nil => simp
  | cons call calls ih =>
    rw [List.foldl_cons, ih, List.map_cons, List.sum_cons, ← add_assoc]
    congr 1
    simp only [cpuStatsEventProcessed]
    split <;> rfl

/-- No call touches the samples of the queue. -/
theorem foldl_maxQueueSize (calls : List (ℕ × ℚ)) (stats : CpuStats) :
    (calls.foldl (fun stats call => cpuStatsEventProcessed stats call.2 call.1)
      stats).maxQueueSize = stats.maxQueueSize := by
  induction calls generalizing stats with
  | nil => rfl
  | cons call calls ih =>
    rw [List.foldl_cons, ih]
    simp only [cpuStatsEventProcessed]
    split <;> rfl

/-! ## 3. The entries of one type -/

/-- Only a greater type than all before, or the same one, makes the arrays grow. -/
theorem numEventTypes_processed (stats : CpuStats) (elapsedTime : ℚ) (type : ℕ) :
    (cpuStatsEventProcessed stats elapsedTime type).numEventTypes =
      max stats.numEventTypes type := by
  simp only [cpuStatsEventProcessed, CpuStats.grow]
  split <;> rename_i h
  · exact (max_eq_right h).symm
  · exact (max_eq_left (not_le.mp h).le).symm

/-- The entry of a type that is below `numEventTypes` counts the call if it is for this type. -/
theorem entry_kept {stats : CpuStats} {t : ℕ} (h : t < stats.numEventTypes) (elapsedTime : ℚ)
    (type : ℕ) :
    let stats' := cpuStatsEventProcessed stats elapsedTime type
    stats'.byEventTypeCount t =
        (if type = t then wrapInt (stats.byEventTypeCount t + 1) else stats.byEventTypeCount t) ∧
      stats'.byEventTypeBusyTime t =
        if type = t then stats.byEventTypeBusyTime t + elapsedTime
        else stats.byEventTypeBusyTime t := by
  have hold : ¬(stats.numEventTypes ≤ t) := not_le.mpr h
  by_cases hgrow : stats.numEventTypes ≤ type
  · have ht : type ≠ t := by omega
    simp [cpuStatsEventProcessed, CpuStats.grow, hgrow, hold, ht, Ne.symm ht]
  · by_cases ht : type = t
    · subst ht
      simp [cpuStatsEventProcessed, hgrow]
    · simp [cpuStatsEventProcessed, hgrow, ht, Ne.symm ht]

/-- The entry of any other type is set to zero when a greater one comes. -/
theorem entry_fresh {stats : CpuStats} {t type : ℕ} (h : stats.numEventTypes ≤ t)
    (hlt : t < type) (elapsedTime : ℚ) :
    let stats' := cpuStatsEventProcessed stats elapsedTime type
    stats'.byEventTypeCount t = 0 ∧ stats'.byEventTypeBusyTime t = 0 := by
  have hgrow : stats.numEventTypes ≤ type := by omega
  have hfresh : stats.numEventTypes ≤ t ∧ t < type + 1 := by omega
  simp only [cpuStatsEventProcessed, CpuStats.grow, if_pos hgrow, Function.update_of_ne hlt.ne,
    if_pos hfresh, and_self]

theorem wrapInt_succ (n : ℕ) : wrapInt (wrapInt n + 1) = wrapInt (n + 1 : ℕ) := by
  rw [wrapInt, wrapInt, wrapInt, Int.bmod_add_bmod, Nat.cast_succ]

/-- A count that fits is itself, and no count is more than itself. -/
theorem wrapInt_le (n : ℕ) : wrapInt n ≤ n ∧ (wrapInt n = n ↔ n < 2 ^ 31) := by
  have hlt : wrapInt n < 2 ^ 31 := @Int.bmod_lt n (2 ^ 32) (Nat.two_pow_pos 32)
  rcases lt_or_ge n (2 ^ 31) with h | h
  · have hself : wrapInt n = n := Int.bmod_eq_of_le (by omega) (by omega)
    exact ⟨hself.le, iff_of_true hself h⟩
  · exact ⟨by omega, iff_of_false (by omega) (by omega)⟩

/-- What is known of the entries of a type after some calls.  An outgrown type is counted; one
that is not is the greatest so far, or has been forgotten at least once. -/
structure CpuStats.Entries (stats : CpuStats) (calls : List (ℕ × ℚ)) (type : ℕ) : Prop where
  outgrown : Outgrown type calls → type < stats.numEventTypes ∧
    stats.byEventTypeCount type = wrapInt (timesOf type calls).length ∧
      stats.byEventTypeBusyTime type = (timesOf type calls).sum
  forgotten : ¬Outgrown type calls → timesOf type calls ≠ [] → type = stats.numEventTypes ∨
    type < stats.numEventTypes ∧ ∃ n < (timesOf type calls).length,
      stats.byEventTypeCount type = wrapInt n
  unseen : ¬Outgrown type calls → timesOf type calls = [] → stats.numEventTypes ≤ type

/-- Another call, by the cases of its type. -/
theorem CpuStats.Entries.processed {stats : CpuStats} (h : stats.Entries calls type)
    (call : ℕ × ℚ) :
    (cpuStatsEventProcessed stats call.2 call.1).Entries (calls ++ [call]) type := by
  have hnum := numEventTypes_processed stats call.2 call.1
  have hkept : type < stats.numEventTypes → _ := fun h => entry_kept h call.2 call.1
  have hfresh : stats.numEventTypes ≤ type → type < call.1 → _ :=
    fun h hlt => entry_fresh h hlt call.2
  set stats' := cpuStatsEventProcessed stats call.2 call.1
  have hsame := timesOf_append type calls call
  by_cases hold : Outgrown type calls
  · obtain ⟨hlt, hc, hb⟩ := h.outgrown hold
    refine ⟨fun _ => ⟨by omega, ?_⟩, fun hnot => absurd (outgrown_append.mpr (.inl hold)) hnot,
      fun hnot => absurd (outgrown_append.mpr (.inl hold)) hnot⟩
    obtain ⟨hcount, htime⟩ := hkept hlt
    by_cases heq : call.1 = type
    · rw [if_pos heq] at hcount htime hsame
      rw [hcount, htime, hsame, hc, hb, wrapInt_succ, List.length_append, List.sum_append,
        List.sum_singleton]
      exact ⟨rfl, rfl⟩
    · rw [if_neg heq] at hcount htime hsame
      rw [hcount, htime, hsame, List.append_nil]
      exact ⟨hc, hb⟩
  · by_cases hseen : timesOf type calls = []
    · have hge := h.unseen hold hseen
      rw [hseen, List.nil_append] at hsame
      rcases lt_trichotomy call.1 type with hlt | heq | hgt
      · -- a smaller type changes nothing
        have hnot : ¬Outgrown type (calls ++ [call]) := by
          rw [outgrown_append]
          rintro (h | ⟨h, -⟩)
          · exact hold h
          · omega
        rw [if_neg (by omega)] at hsame
        exact ⟨fun h => absurd h hnot, fun _ h => absurd hsame h, fun _ _ => by omega⟩
      · have hnot : ¬Outgrown type (calls ++ [call]) := by
          rw [outgrown_append]
          rintro (h | ⟨h, -⟩)
          · exact hold h
          · omega
        refine ⟨fun h => absurd h hnot, fun _ _ => .inl (by omega), fun _ _ => by omega⟩
      · -- a greater type sets the entry to zero
        rw [if_neg (by omega)] at hsame
        obtain ⟨hcount, htime⟩ := hfresh hge hgt
        refine ⟨fun _ => ⟨by omega, ?_⟩, fun hnot _ => ?_, fun hnot _ => ?_⟩
        · rw [hcount, htime, hsame]
          exact ⟨rfl, rfl⟩
        · exact absurd (outgrown_append.mpr (.inr ⟨hgt, hseen⟩)) hnot
        · exact absurd (outgrown_append.mpr (.inr ⟨hgt, hseen⟩)) hnot
    · have hnot : ¬Outgrown type (calls ++ [call]) := by
        rw [outgrown_append]
        rintro (h | ⟨-, h⟩)
        · exact hold h
        · exact hseen h
      have hlen := List.length_pos_of_ne_nil hseen
      refine ⟨fun h => absurd h hnot, fun _ _ => ?_, fun _ hnone => ?_⟩
      · rw [hsame, List.length_append]
        rcases h.forgotten hold hseen with heq | ⟨hlt, n, hn, hc⟩
        · rcases lt_trichotomy call.1 type with hlt | hcall | hgt
          · left
            omega
          · left
            omega
          · right
            exact ⟨by omega, 0, by omega, (hfresh heq.ge hgt).1⟩
        · right
          have hcount := (hkept hlt).1
          refine ⟨by omega, ?_⟩
          by_cases hcall : call.1 = type
          · rw [if_pos hcall, hc, wrapInt_succ] at hcount
            exact ⟨n + 1, by rw [if_pos hcall]; exact Nat.succ_lt_succ hn, hcount⟩
          · rw [if_neg hcall, hc] at hcount
            exact ⟨n, by omega, hcount⟩
      · rw [hsame] at hnone
        exact absurd (List.append_eq_nil_iff.mp hnone).1 hseen

theorem cpuStats_entries (calls : List (ℕ × ℚ)) (type : ℕ) :
    (cpuStatsAll calls).Entries calls type := by
  induction calls using List.reverseRecOn with
  | nil =>
    refine ⟨?_, fun _ h => absurd rfl h, fun _ _ => Nat.zero_le _⟩
    rintro ⟨before, call, after, h, -⟩
    simp at h
  | append_singleton calls call ih =>
    rw [cpuStatsAll_append]
    exact ih.processed call

/-- **The entries by type.**  The total is the sum of all times.  The entries of a type that
occurred are right, and reported, exactly if a greater type came before it, and its count fits an
`int`; so those of the type that comes first are not. -/
theorem cpuStats_by_event_type (calls : List (ℕ × ℚ)) :
    (cpuStatsAll calls).busyTime = (calls.map Prod.snd).sum ∧
    (∀ type ∈ calls.map Prod.fst, (cpuStatsAll calls).Right calls type ↔
      Outgrown type calls ∧ (timesOf type calls).length < 2 ^ 31) ∧
    ((∀ type ∈ calls.map Prod.fst, (cpuStatsAll calls).Right calls type) ↔ calls = []) := by
  have key : ∀ type ∈ calls.map Prod.fst, (cpuStatsAll calls).Right calls type ↔
      Outgrown type calls ∧ (timesOf type calls).length < 2 ^ 31 := by
    intro type hmem
    have hseen : timesOf type calls ≠ [] := by
      obtain ⟨call, hcall, rfl⟩ := List.mem_map.mp hmem
      exact List.ne_nil_of_mem (List.mem_map_of_mem (List.mem_filter.mpr ⟨hcall, by simp⟩))
    have hentries := cpuStats_entries calls type
    have hfits := wrapInt_le (timesOf type calls).length
    by_cases hout : Outgrown type calls
    · obtain ⟨hlt, hcount, htime⟩ := hentries.outgrown hout
      refine ⟨fun h => ⟨hout, hfits.2.mp (hcount.symm.trans h.count)⟩, fun h => ?_⟩
      exact ⟨hcount.trans (hfits.2.mpr h.2), htime, hlt⟩
    · refine ⟨fun h => absurd h fun h => ?_, fun h => absurd h.1 hout⟩
      rcases hentries.forgotten hout hseen with heq | ⟨-, n, hn, hcount⟩
      · exact absurd h.reported (by omega)
      · have := (wrapInt_le n).1
        have := hcount.symm.trans h.count
        omega
  refine ⟨?_, key, fun h => ?_, ?_⟩
  · rw [cpuStatsAll, foldl_busyTime]
    exact zero_add _
  · cases calls with
    | nil => rfl
    | cons call calls =>
      -- nothing comes before the first call
      have hfirst : call.1 ∈ (call :: calls).map Prod.fst := List.mem_cons_self
      obtain ⟨⟨before, call', after, heq, hlt, hnone⟩, -⟩ := (key _ hfirst).mp (h _ hfirst)
      cases before with
      | nil =>
        cases heq
        exact absurd hlt (lt_irrefl _)
      | cons _ before =>
        cases heq
        simp [timesOf] at hnone
  · rintro rfl type hmem
    cases hmem

/-- Two events of type 13, `GR_GET_REQUEST`: one is counted, with its own time, and the type is not
reported. -/
theorem cpuStats_forgets :
    let stats := cpuStatsAll [(13, 2), (13, 3)]
    ¬stats.Right [(13, 2), (13, 3)] 13 ∧ stats.byEventTypeCount 13 = 1 ∧
      stats.byEventTypeBusyTime 13 = 3 ∧ stats.numEventTypes = 13 := by
  refine ⟨fun h => ?_, by decide +kernel, by decide +kernel, by decide +kernel⟩
  exact absurd h.reported (by decide)

end CCSim
