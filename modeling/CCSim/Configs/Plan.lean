/-
# What template and actions ask for

`planFields` says which parameters vary, and over which values.  A combination is one value of each
list, an element of `List.sections`, and `ConfigPlan.fill` writes it into a document, which agrees
with the template elsewhere (`planFields_agrees`).  `ReturnsCombinations` says that the script
returns the documents of all combinations.

Numbers are the interpreter's; with exact ones a range has the values that its bounds and its step
say (`mem_rangeValues_exact`).
-/
import CCSim.Configs.Script
import Mathlib.Data.List.Sections
import Mathlib.Data.Nat.Find
import Mathlib.Data.Rat.Init
import Mathlib.Algebra.Order.Archimedean.Basic
import Mathlib.Algebra.Order.Field.Rat
import Mathlib.Tactic.Linarith
import Mathlib.Tactic.Ring

namespace CCSim

variable {N : Type}

/-! ## 1. The plan -/

mutual

/-- A parameter has a fixed value, or varies over a list or a range; or its fields do. -/
inductive ConfigPlan (N : Type)
  | constant (value : Json N)
  | list (values : List (Json N))
  | range (min max step : Json N)
  | object (fields : ConfigPlans N)

inductive ConfigPlans (N : Type)
  | nil
  | cons (key : String) (plan : ConfigPlan N) (rest : ConfigPlans N)

end

def Json.field : Json N → String → Json N
  | .object fields, k => fields.get k
  | _, _ => .null

mutual

/-- What the values at one key ask for: no action leaves the template's value as it is, and so does
an action that is no list, range or object. -/
def planValue : Json N → Json N → ConfigPlan N
  | template, .null => .constant template
  | .object template, action => .object (planFields template action)
  | _, .array values => .list values
  | template, .object action =>
    .range (definedOr (action.get "min") template) (action.get "max") (action.get "step")
  | template, _ => .constant template

def planFields : Fields N → Json N → ConfigPlans N
  | .nil, _ => .nil
  | .cons key value rest, actions =>
    .cons key (planValue value (actions.field key)) (planFields rest actions)

end

mutual

/-- Every list has a value, and every range has numbers for its bounds and its step. -/
def ConfigPlan.Posed : ConfigPlan N → Prop
  | .constant _ => True
  | .list values => values ≠ []
  | .range min max step => min.isNumber ∧ max.isNumber ∧ step.isNumber
  | .object fields => fields.Posed

def ConfigPlans.Posed : ConfigPlans N → Prop
  | .nil => True
  | .cons _ plan rest => plan.Posed ∧ rest.Posed

end

section Values

variable [PerlNumber N]

/-- The sums of a range. -/
def rangeValue (min step : Json N) : ℕ → Json N
  | 0 => min
  | i + 1 => .number (PerlNumber.add (rangeValue min step i).numeric step.numeric)

/-- No value comes after this one. -/
def isLast (max step value : Json N) : Bool :=
  PerlNumber.gt (PerlNumber.add value.numeric step.numeric) max.numeric ||
    PerlNumber.isZero step.numeric

def RangeEnds (min max step : Json N) : Prop :=
  ∃ i, isLast max step (rangeValue min step i) = true

open Classical in
/-- The values of a range that ends. -/
noncomputable def rangeValues (min max step : Json N) : List (Json N) :=
  if h : RangeEnds min max step then (List.range (Nat.find h + 1)).map (rangeValue min step) else []

mutual

/-- The values listed for each parameter that varies. -/
noncomputable def ConfigPlan.listed : ConfigPlan N → List (List (Json N))
  | .constant _ => []
  | .list values => [values]
  | .range min max step => [rangeValues min max step]
  | .object fields => fields.listed

noncomputable def ConfigPlans.listed : ConfigPlans N → List (List (Json N))
  | .nil => []
  | .cons _ plan rest => plan.listed ++ rest.listed

end

mutual

/-- The document with these values of the parameters that vary. -/
noncomputable def ConfigPlan.fill : ConfigPlan N → List (Json N) → Json N
  | .constant value, _ => value
  | .list _, choice => choice.headD .null
  | .range _ _ _, choice => choice.headD .null
  | .object fields, choice => .object (fields.fill choice)

noncomputable def ConfigPlans.fill : ConfigPlans N → List (Json N) → Fields N
  | .nil, _ => .nil
  | .cons key plan rest, choice =>
    .cons key (plan.fill (choice.take plan.listed.length))
      (rest.fill (choice.drop plan.listed.length))

end

mutual

/-- The document equals the template outside the parameters that vary. -/
def ConfigPlan.Agrees : ConfigPlan N → Json N → Json N → Prop
  | .constant _, template, document => document = template
  | .list _, _, _ => True
  | .range _ _ _, _, _ => True
  | .object fields, .object template, .object document => fields.Agrees template document
  | .object _, _, _ => False

def ConfigPlans.Agrees : ConfigPlans N → Fields N → Fields N → Prop
  | .nil, .nil, .nil => True
  | .cons key plan rest, .cons key₁ template templates, .cons key₂ document documents =>
    key₁ = key ∧ key₂ = key ∧ plan.Agrees template document ∧ rest.Agrees templates documents
  | _, _, _ => False

end

mutual

/-- No value is `null`, no object is empty, and every range ends. -/
def ConfigPlan.Clean : ConfigPlan N → Prop
  | .constant value => value.isNull = false
  | .list values => ∀ value ∈ values, value.isNull = false
  | .range min max step => RangeEnds min max step
  | .object fields => fields ≠ .nil ∧ fields.Clean

def ConfigPlans.Clean : ConfigPlans N → Prop
  | .nil => True
  | .cons _ plan rest => plan.Clean ∧ rest.Clean

end

/-- The documents of the combinations, a value of each list. -/
noncomputable def ConfigPlan.documents (plan : ConfigPlan N) : List (Json N) :=
  plan.listed.sections.map plan.fill

noncomputable def ConfigPlans.documents (plans : ConfigPlans N) : List (Fields N) :=
  plans.listed.sections.map plans.fill

/-- The script returns the documents of all combinations; no two combinations have the same one, and
each equals the template outside the parameters that vary. -/
structure ReturnsCombinations (templateFile : String) (template : Fields N) (actions : Json N) :
    Prop where
  returns : ∃ fuel, mkjsonconfigs templateFile fuel template actions =
    .returned (ConfigPlan.object (planFields template actions)).documents
  distinct : ∀ choice ∈ (planFields template actions).listed.sections,
    ∀ choice' ∈ (planFields template actions).listed.sections,
      (planFields template actions).fill choice = (planFields template actions).fill choice' →
        choice = choice'
  agrees : ∀ choice ∈ (planFields template actions).listed.sections,
    (planFields template actions).Agrees template ((planFields template actions).fill choice)

/-! ## 2. Combinations and documents -/

theorem sections_append {α : Type} (L L' : List (List α)) :
    (L ++ L').sections = L'.sections.flatMap fun s => L.sections.map fun t => t ++ s := by
  induction L with
  | nil => simp [List.sections]
  | cons l L ih =>
    simp only [List.cons_append, List.sections, ih, List.flatMap_assoc, List.map_flatMap,
      List.flatMap_map, List.map_map]
    rfl

theorem ConfigPlans.documents_cons (key : String) (plan : ConfigPlan N) (rest : ConfigPlans N) :
    (ConfigPlans.cons key plan rest).documents =
      rest.documents.flatMap fun b => plan.documents.map fun a => .cons key a b := by
  simp only [ConfigPlans.documents, ConfigPlan.documents, ConfigPlans.listed, sections_append,
    List.map_flatMap, List.flatMap_map, List.map_map]
  refine List.flatMap_congr fun s _ => List.map_congr_left fun t ht => ?_
  have hlength := List.mem_sections_length ht
  simp only [Function.comp, ConfigPlans.fill, ← hlength, List.take_left, List.drop_left]

mutual

theorem ConfigPlan.fill_injective : ∀ (plan : ConfigPlan N) {choice choice' : List (Json N)},
    choice.length = plan.listed.length → choice'.length = plan.listed.length →
      plan.fill choice = plan.fill choice' → choice = choice'
  | .constant _, choice, choice', h, h', _ => by
    rw [ConfigPlan.listed, List.length_nil, List.length_eq_zero_iff] at h h'
    rw [h, h']
  | .list _, choice, choice', h, h', heq => by
    obtain ⟨value, rfl⟩ := List.length_eq_one_iff.mp h
    obtain ⟨value', rfl⟩ := List.length_eq_one_iff.mp h'
    exact congrArg (fun v => [v]) heq
  | .range _ _ _, choice, choice', h, h', heq => by
    obtain ⟨value, rfl⟩ := List.length_eq_one_iff.mp h
    obtain ⟨value', rfl⟩ := List.length_eq_one_iff.mp h'
    exact congrArg (fun v => [v]) heq
  | .object fields, choice, choice', h, h', heq => by
    simp only [ConfigPlan.fill, Json.object.injEq] at heq
    exact fields.fill_injective h h' heq

theorem ConfigPlans.fill_injective : ∀ (plans : ConfigPlans N) {choice choice' : List (Json N)},
    choice.length = plans.listed.length → choice'.length = plans.listed.length →
      plans.fill choice = plans.fill choice' → choice = choice'
  | .nil, choice, choice', h, h', _ => by
    rw [ConfigPlans.listed, List.length_nil, List.length_eq_zero_iff] at h h'
    rw [h, h']
  | .cons _ plan rest, choice, choice', h, h', heq => by
    rw [ConfigPlans.listed, List.length_append] at h h'
    simp only [ConfigPlans.fill, Fields.cons.injEq, true_and] at heq
    have htake := plan.fill_injective (by rw [List.length_take]; omega)
      (by rw [List.length_take]; omega) heq.1
    have hdrop := rest.fill_injective (by rw [List.length_drop]; omega)
      (by rw [List.length_drop]; omega) heq.2
    rw [← List.take_append_drop plan.listed.length choice, htake, hdrop, List.take_append_drop]

end

mutual

theorem planValue_agrees : ∀ (template action : Json N) (choice : List (Json N)),
    (planValue template action).Agrees template ((planValue template action).fill choice)
  | template, action, choice => by
    cases action <;> cases template <;>
      simp only [planValue, ConfigPlan.fill, ConfigPlan.Agrees, planFields_agrees]

theorem planFields_agrees : ∀ (template : Fields N) (actions : Json N) (choice : List (Json N)),
    (planFields template actions).Agrees template ((planFields template actions).fill choice)
  | .nil, _, _ => by simp only [planFields, ConfigPlans.fill, ConfigPlans.Agrees]
  | .cons key value rest, actions, choice => by
    simp only [planFields, ConfigPlans.fill, ConfigPlans.Agrees, true_and]
    exact ⟨planValue_agrees _ _ _, planFields_agrees _ _ _⟩

end

end Values

/-! ## 3. Exact numbers -/

/-- Exact arithmetic, for values that are numbers or count for 0. -/
instance exactNumber : PerlNumber ℚ where
  add a b := a + b
  gt a b := decide (b < a)
  isZero a := decide (a = 0)
  ofValue _ := 0

theorem rangeValue_exact (min step : ℚ) :
    ∀ i : ℕ, rangeValue (.number min) (.number step) i = .number (min + i * step)
  | 0 => by
    rw [Nat.cast_zero, zero_mul, add_zero]
    rfl
  | i + 1 => by
    rw [rangeValue, rangeValue_exact min step i]
    have hsum : min + i * step + step = min + (i + 1 : ℕ) * step := by
      push_cast
      ring
    exact congrArg Json.number hsum

theorem isLast_exact {max step value : ℚ} :
    isLast (.number max) (.number step) (.number value) = true ↔ max < value + step ∨ step = 0 := by
  rw [isLast, Bool.or_eq_true]
  exact or_congr decide_eq_true_iff decide_eq_true_iff

/-- With exact numbers every range ends. -/
theorem rangeEnds_exact (min max : ℚ) {step : ℚ} (h : 0 ≤ step) :
    RangeEnds (.number min) (.number max) (.number step) := by
  rcases h.eq_or_lt with hzero | hpos
  · exact ⟨0, isLast_exact.mpr (.inr hzero.symm)⟩
  · obtain ⟨n, hn⟩ := Archimedean.arch (max - min + 1) hpos
    refine ⟨n, ?_⟩
    rw [rangeValue_exact, isLast_exact]
    rw [nsmul_eq_mul] at hn
    left
    linarith

/-- With exact numbers a range has the values that its bounds and its step say. -/
theorem mem_rangeValues_exact {min max step value : ℚ} (hstep : 0 < step) (hle : min ≤ max) :
    .number value ∈ rangeValues (.number min : Json ℚ) (.number max) (.number step) ↔
      ∃ i : ℕ, value = min + i * step ∧ value ≤ max := by
  classical
  have hends := rangeEnds_exact min max hstep.le
  have hfind : ∀ i : ℕ, i < Nat.find hends + 1 ↔ min + i * step ≤ max := fun i => by
    constructor
    · intro hi
      cases i with
      | zero =>
        rw [Nat.cast_zero, zero_mul, add_zero]
        exact hle
      | succ i =>
        have hnot := Nat.find_min hends (m := i) (by omega)
        rw [rangeValue_exact, isLast_exact, not_or, not_lt] at hnot
        push_cast
        linarith [hnot.1]
    · intro hi
      by_contra hge
      have hlast := Nat.find_spec hends
      rw [rangeValue_exact, isLast_exact, or_iff_left hstep.ne'] at hlast
      have hcast : (Nat.find hends + 1 : ℚ) ≤ i := by exact_mod_cast not_lt.mp hge
      have hmul := mul_le_mul_of_nonneg_right hcast hstep.le
      linarith
  rw [rangeValues, dif_pos hends, List.mem_map]
  constructor
  · rintro ⟨i, hi, heq⟩
    rw [rangeValue_exact] at heq
    cases heq
    exact ⟨i, rfl, (hfind i).mp (List.mem_range.mp hi)⟩
  · rintro ⟨i, rfl, hi⟩
    exact ⟨i, List.mem_range.mpr ((hfind i).mpr hi), rangeValue_exact min step i⟩

end CCSim
