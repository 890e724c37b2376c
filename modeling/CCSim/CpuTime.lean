/-
# Every handler takes time

When a handler returns, `cpu_process` asserts that it has used CPU time, unless it has called
`cpu_allow_no_time`.  Whether a list of calls uses time can be read off without knowing how much: a
lock call does, and so does a message; `cpu_add_time` does for a factor that is not 0, as long as
the time is not set back to what it was before (`takesTime`).  If all times that are drawn are
positive, such calls use time (`Randomness.Positive.spend_pos`), and the choice that a simulator
makes for the handler suits it (`Simulator.plan_suits`).
-/
import CCSim.Progress
import Mathlib.Algebra.Order.BigOperators.Group.List

namespace CCSim

variable {S K E σ κ χ U : Type}

/-! ## 1. Calls that take time -/

/-- The calls that take time by themselves. -/
def CpuCall.isCharged : CpuCall S K E → Bool
  | .lock _ _ _ => true
  | .unlock _ _ _ => true
  | .output (.toServer _ _) => true
  | .output (.toClient _ _) => true
  | _ => false

/-- Whether calls take time; `time` says whether some has been taken before, since something was
last handed over, and `saved` whether some had been taken when the time was last saved. -/
def takesTime : List (CpuCall S K E) → Bool → Bool → Bool
  | [], time, _ => time
  | call :: calls, time, saved => call.isCharged ||
    match call with
    | .addTime factor _ => takesTime calls (time || decide (0 < factor)) saved
    | .saveTime => takesTime calls time time
    | .restoreTime => takesTime calls saved saved
    | .output _ => time || takesTime calls false saved
    | _ => takesTime calls time saved

/-- Calls take time if one of them does. -/
theorem takesTime_of_charged {calls : List (CpuCall S K E)} (h : ∃ a ∈ calls, a.isCharged = true) :
    ∀ time saved, takesTime calls time saved = true := by
  induction calls with
  | nil =>
    obtain ⟨a, ha, -⟩ := h
    cases ha
  | cons call calls ih =>
    intro time saved
    obtain ⟨a, ha, hcharged⟩ := h
    rcases List.mem_cons.mp ha with rfl | ha
    · simp [takesTime, hcharged]
    · have hrest := ih ⟨a, ha, hcharged⟩
      cases call <;> simp [takesTime, hrest]

/-- The last call takes time. -/
theorem takesTime_last (calls : List (CpuCall S K E)) {call : CpuCall S K E}
    (h : call.isCharged = true) (time saved : Bool) :
    takesTime (calls ++ [call]) time saved = true :=
  takesTime_of_charged ⟨call, List.mem_append_right _ List.mem_cons_self, h⟩ _ _

/-- What has been taken stays taken, once it has been saved. -/
theorem takesTime_saved (calls : List (CpuCall S K E)) : takesTime calls true true = true := by
  induction calls with
  | nil => rfl
  | cons call calls ih => cases call <;> simp [takesTime, ih]

/-- What has been taken stays taken, if the time is not set back. -/
theorem takesTime_kept {calls : List (CpuCall S K E)} (h : ∀ a ∈ calls, a ≠ .restoreTime) :
    ∀ saved, takesTime calls true saved = true := by
  induction calls with
  | nil => exact fun _ => rfl
  | cons call calls ih =>
    obtain ⟨hcall, hcalls⟩ := List.forall_mem_cons.mp h
    intro saved
    cases call with
    | restoreTime => exact absurd rfl hcall
    | _ => simp [takesTime, ih hcalls]

theorem takesTime_outputs (outs : List (Out S K E)) (saved : Bool) :
    takesTime (outs.map CpuCall.output) true saved = true := by
  cases outs with
  | nil => rfl
  | cons o outs => simp [takesTime]

/-- Times before calls that take time. -/
theorem takesTime_after {pre calls : List (CpuCall S K E)} {saved : Bool}
    (hpre : ∀ a ∈ pre, ∃ factor t, a = .addTime factor t)
    (h : ∀ time, takesTime calls time saved = true) :
    ∀ time, takesTime (pre ++ calls) time saved = true := by
  induction pre with
  | nil => exact h
  | cons call pre ih =>
    obtain ⟨⟨factor, t, rfl⟩, hrest⟩ := List.forall_mem_cons.mp hpre
    exact fun time => ih hrest _

/-! ## 2. Spending -/

section Spend

variable {R : Randomness S U} (simulatedSize : E → ℕ) (s : S)

/-- A message takes time to send. -/
theorem Randomness.Positive.sendTime_pos (h : R.Positive) {o : Out S K E}
    (ho : (CpuCall.output o).isCharged = true) (pos : ℕ) :
    0 < (R.sendTime simulatedSize s o pos).1 := by
  have hdraws : 0 < (R.draw s .serverSendTime pos).1 + simulatedSize o.event *
      (R.draw s .serverSendPerByteTime (R.draw s .serverSendTime pos).2).1 :=
    add_pos_of_pos_of_nonneg (h _ _ _) (mul_nonneg (Nat.cast_nonneg _) (h _ _ _).le)
  cases o with
  | self => cases ho
  | toServer => exact hdraws
  | toClient => exact hdraws

/-- One time is drawn for each thing that is handed over. -/
theorem Randomness.spend_length (calls : List (CpuCall S K E)) :
    ∀ (pos : ℕ) (time saved : ℚ),
      (R.spend simulatedSize s calls pos time saved).draws.length = (callOuts calls).length := by
  induction calls with
  | nil => exact fun _ _ _ => rfl
  | cons call calls ih =>
    intro pos time saved
    cases call with
    | output o =>
      rw [Randomness.spend, callOuts_cons]
      exact congrArg (· + 1) (ih _ _ _)
    | lock => exact ih _ _ _
    | unlock => exact ih _ _ _
    | _ => exact ih _ _ _

/-- No time is negative. -/
theorem Randomness.Positive.spend_nonneg (h : R.Positive) (calls : List (CpuCall S K E)) :
    ∀ (pos : ℕ) (time saved : ℚ), 0 ≤ time → 0 ≤ saved →
      (∀ d ∈ (R.spend simulatedSize s calls pos time saved).draws, 0 ≤ d) ∧
        0 ≤ (R.spend simulatedSize s calls pos time saved).last ∧
          0 ≤ (R.spend simulatedSize s calls pos time saved).after := by
  induction calls with
  | nil => exact fun _ _ _ htime _ => ⟨List.forall_mem_nil _, htime, le_rfl⟩
  | cons call calls ih =>
    intro pos time saved htime hsaved
    cases call with
    | addTime factor t =>
      exact ih _ _ _ (add_nonneg htime (mul_nonneg (Nat.cast_nonneg _) (h _ _ _).le)) hsaved
    | saveTime => exact ih _ _ _ htime htime
    | restoreTime => exact ih _ _ _ hsaved hsaved
    | output o =>
      obtain ⟨hdraws, hlast⟩ := ih (R.sendTime simulatedSize s o pos).2 0 saved le_rfl hsaved
      exact ⟨List.forall_mem_cons.mpr ⟨add_nonneg htime (h.sendTime_nonneg _ _ _ _), hdraws⟩, hlast⟩
    | lock m id e =>
      obtain ⟨hdraws, hlast, -⟩ := ih (R.draw s .lockTime pos).2 0 saved le_rfl hsaved
      exact ⟨hdraws, add_nonneg htime (h _ _ _).le, hlast⟩
    | unlock m id e =>
      obtain ⟨hdraws, hlast, -⟩ := ih (R.draw s .lockTime pos).2 0 saved le_rfl hsaved
      exact ⟨hdraws, add_nonneg htime (h _ _ _).le, hlast⟩
    | allowNoTime => exact ih _ _ _ htime hsaved
    | storePut key => exact ih _ _ _ htime hsaved

/-- **Calls that take time use some.** -/
theorem Randomness.Positive.spend_pos (h : R.Positive) (calls : List (CpuCall S K E)) :
    ∀ (pos : ℕ) (time saved : ℚ) (time' saved' : Bool), 0 ≤ time → 0 ≤ saved →
      (time' = true → 0 < time) → (saved' = true → 0 < saved) →
        takesTime calls time' saved' = true →
          0 < (R.spend simulatedSize s calls pos time saved).draws.sum +
            (R.spend simulatedSize s calls pos time saved).last := by
  induction calls with
  | nil =>
    intro pos time saved time' saved' _ _ hpos _ htakes
    exact add_pos_of_nonneg_of_pos le_rfl (hpos htakes)
  | cons call calls ih =>
    intro pos time saved time' saved' htime hsaved hpos hpos' htakes
    cases call with
    | addTime factor t =>
      have hdraw := h s t pos
      refine ih _ _ _ (time' || decide (0 < factor)) saved'
        (add_nonneg htime (mul_nonneg (Nat.cast_nonneg _) hdraw.le)) hsaved (fun hor => ?_) hpos'
        htakes
      rcases Bool.or_eq_true_iff.mp hor with hbefore | hfactor
      · exact add_pos_of_pos_of_nonneg (hpos hbefore) (mul_nonneg (Nat.cast_nonneg _) hdraw.le)
      · exact add_pos_of_nonneg_of_pos htime
          (mul_pos (Nat.cast_pos.mpr (of_decide_eq_true hfactor)) hdraw)
    | saveTime => exact ih _ _ _ time' time' htime htime hpos hpos htakes
    | restoreTime => exact ih _ _ _ saved' saved' hsaved hsaved hpos' hpos' htakes
    | output o =>
      have hnonneg := h.spend_nonneg simulatedSize s calls
        (R.sendTime simulatedSize s o pos).2 0 saved le_rfl hsaved
      have hsum := List.sum_nonneg hnonneg.1
      have hsend := h.sendTime_nonneg simulatedSize s o pos
      rw [Randomness.spend, List.sum_cons]
      dsimp only
      rcases Bool.or_eq_true_iff.mp htakes with hcharged | hrest
      · have hsend' := h.sendTime_pos simulatedSize s hcharged pos
        linarith [hnonneg.2.1]
      · rcases Bool.or_eq_true_iff.mp hrest with hbefore | hafter
        · linarith [hpos hbefore, hnonneg.2.1]
        · have hlater := ih (R.sendTime simulatedSize s o pos).2 0 saved false saved' le_rfl hsaved
            (by rintro ⟨⟩) hpos' hafter
          linarith
    | lock m id e =>
      have hnonneg := h.spend_nonneg simulatedSize s calls (R.draw s .lockTime pos).2 0 saved
        le_rfl hsaved
      exact add_pos_of_nonneg_of_pos (List.sum_nonneg hnonneg.1)
        (add_pos_of_nonneg_of_pos htime (h _ _ _))
    | unlock m id e =>
      have hnonneg := h.spend_nonneg simulatedSize s calls (R.draw s .lockTime pos).2 0 saved
        le_rfl hsaved
      exact add_pos_of_nonneg_of_pos (List.sum_nonneg hnonneg.1)
        (add_pos_of_nonneg_of_pos htime (h _ _ _))
    | allowNoTime => exact ih _ _ _ time' saved' htime hsaved hpos hpos' htakes
    | storePut key => exact ih _ _ _ time' saved' htime hsaved hpos hpos' htakes

end Spend

/-! ## 3. Simulators -/

variable [DecidableEq S] {M : Simulator S K E σ κ χ U} {X : Sim S K E σ κ}

/-- **What a simulator chooses suits the handler** that it runs next. -/
theorem Simulator.plan_suits (hM : M.Lists) (hpos : M.random.Positive) {s : S} {t : ℚ} {e : E}
    {r : Outcome S K E σ} (hnext : M.next X = some (s, t, e))
    (hr : M.program.serve s t (X.world.servers s).state e = some r)
    (htakes : r.noTime = true ∨
      takesTime (M.calls s (X.keys s) t (X.world.servers s).state e) false false = true) :
    (M.plan X).choice.Suits r := by
  have hcalls := hM s (X.keys s) t _ e r hr
  unfold Simulator.plan
  rw [hnext]
  obtain ⟨hdraws, hlast, hafter⟩ := hpos.spend_nonneg M.conf.simulatedSize s
    (M.calls s (X.keys s) t (X.world.servers s).state e) (M.drawn X s) 0 0 le_rfl le_rfl
  refine ⟨?_, hdraws, hlast, hafter, ?_⟩
  · rw [← hcalls.outs]
    exact Randomness.spend_length M.conf.simulatedSize s _ _ _ _
  · refine htakes.imp_right fun htime => ?_
    exact hpos.spend_pos M.conf.simulatedSize s _ _ _ _ false false le_rfl le_rfl (by rintro ⟨⟩)
      (by rintro ⟨⟩) htime

/-- A simulator makes the decision that it makes. -/
theorem Simulator.plan_decision (M : Simulator S K E σ κ χ U) (X : Sim S K E σ κ) :
    (M.plan X).choice.decision = M.decision X := by
  unfold Simulator.plan
  split <;> rfl

/-- A simulator goes on if the world does. -/
theorem Simulator.step_isSome [DecidableEq K]
    (h : (X.world.step M.program M.conf (M.plan X).choice).isSome) : (M.step X).isSome := by
  obtain ⟨⟨W, a⟩, hstep⟩ := Option.isSome_iff_exists.mp h
  have hev := hstep
  simp only [World.step, Option.bind_eq_bind, Option.bind_eq_some_iff, M.plan_pick X] at hev
  obtain ⟨ev, hev, -⟩ := hev
  simp only [Simulator.step, Option.bind_eq_bind, hev, hstep, Option.bind_some, Option.pure_def,
    Option.isSome_some]

end CCSim
