/-
# The counters are an odometer

For all inputs that `check_parameters` accepts, whose lists are not empty and whose ranges have
numbers as bounds, `mkjsonconfigs_combinations` says when the script returns every combination
exactly once: the plan has no empty object (for which the counter never overflows, and the script
never returns), no `null` among its values (on which the script dies), and its ranges end.

The counters of a hash are the wheels of an odometer (`counterWheel_carries`).  So the counter of a
clean plan goes through the plan's documents and overflows after the last one (`ConfigPlan.turns`);
and as a row overflows only if each of its wheels does, a counter that overflows has a clean plan
(`ConfigPlan.clean_of_overflows`).
-/
import CCSim.Configs.Plan
import CCSim.Lib.Odometer

namespace CCSim

variable {N : Type}

/-! ## 1. The counters that are made -/

mutual

/-- The counter of a plan. -/
def ConfigPlan.counter : ConfigPlan N → Counter N
  | .constant value => makeConstant value
  | .list values => makeValueListCounter values
  | .range min max step => makeNumericCounter min max step
  | .object fields => .hash fields.counters

def ConfigPlans.counters : ConfigPlans N → Counters N
  | .nil => .nil
  | .cons key plan rest => .cons key plan.counter none rest.counters

end

theorem Counters.ne_nil_of_docIsEmpty {counters : Counters N} (h : counters.docIsEmpty = false) :
    counters ≠ .nil := by
  rintro rfl
  cases h

theorem ConfigPlans.docIsEmpty_counters : ∀ plans : ConfigPlans N, plans.counters.docIsEmpty = true
  | .nil => rfl
  | .cons _ _ rest => rest.docIsEmpty_counters

theorem field_eq_get {actionsParams : Json N} {actions : Fields N}
    (h : actionsParams.deref = .ok actions) (k : String) :
    actionsParams.field k = actions.get k := by
  cases actionsParams <;> cases h <;> rfl

theorem isNull_of_isNumber {value : Json N} (h : value.isNumber = true) : value.isNull = false := by
  cases value <;> first | rfl | cases h

theorem definedOrDie_number {value : Json N} (h : value.isNumber = true) (message : String) :
    definedOrDie value message = .ok value := by
  rw [definedOrDie, isNull_of_isNumber h, if_neg Bool.false_ne_true]

theorem bind_eq_ok {α β : Type} {x : Except String α} {f : α → Except String β} {b : β} :
    (x >>= f) = .ok b ↔ ∃ a, x = .ok a ∧ f a = .ok b := by
  cases x with
  | error message =>
    constructor
    · intro h
      cases h
    · rintro ⟨a, h, -⟩
      cases h
  | ok a =>
    constructor
    · intro h
      exact ⟨a, rfl, h⟩
    · rintro ⟨_, ⟨⟩, h⟩
      exact h

/-- A parameter that is no object in the template. -/
theorem makeCounter_eq_of_ne {template action : Json N} (k : String)
    (hne : ∀ fields, template ≠ .object fields) (hposed : (planValue template action).Posed) :
    makeCounter k template action = .ok (planValue template action).counter := by
  cases action with
  | object fields =>
    have hplan : planValue template (.object fields) =
        .range (definedOr (fields.get "min") template) (fields.get "max") (fields.get "step") := by
      cases template <;> first | rfl | exact absurd rfl (hne _)
    have hmake : makeCounter k template (.object fields) = (do
        let step ← definedOrDie (fields.get "step") ("Missing step in object for " ++ k)
        let max ← definedOrDie (fields.get "max") ("Missing max in object for " ++ k)
        .ok (makeNumericCounter (definedOr (fields.get "min") template) max step)) := by
      cases template <;> first | rfl | exact absurd rfl (hne _)
    rw [hplan] at hposed ⊢
    obtain ⟨-, hmax, hstep⟩ := hposed
    rw [hmake, definedOrDie_number hstep, definedOrDie_number hmax]
    rfl
  | _ => cases template <;> first | rfl | exact absurd rfl (hne _)

variable {templateFile : String}

mutual

theorem makeCounter_eq (k : String) : ∀ (template action : Json N),
    checkValue templateFile template action = .ok () → (planValue template action).Posed →
      makeCounter k template action = .ok (planValue template action).counter
  | template, action, hcheck, hposed => by
    cases template with
    | object template =>
      simp only [checkValue, bind_eq_ok] at hcheck
      obtain ⟨actions, hderef, hcheck⟩ := hcheck
      split at hcheck
      · cases hcheck
      · cases action with
        | null => rfl
        | object fields =>
          simp only [planValue, ConfigPlan.Posed] at hposed
          simp only [makeCounter, planValue, ConfigPlan.counter,
            makeCounters_eq template (.object fields) hderef hcheck hposed]
          rfl
        | _ => cases hderef
    | _ => exact makeCounter_eq_of_ne k (by rintro fields ⟨⟩) hposed

theorem makeCounters_eq : ∀ (template : Fields N) (actionsParams : Json N) {actions : Fields N},
    actionsParams.deref = .ok actions → checkFields templateFile template actions = .ok () →
      (planFields template actionsParams).Posed →
        makeCounters template actionsParams = .ok (planFields template actionsParams).counters
  | .nil, _, _, _, _, _ => rfl
  | .cons key value rest, actionsParams, actions, hderef, hcheck, hposed => by
    simp only [checkFields, bind_eq_ok] at hcheck
    obtain ⟨⟨⟩, hvalue, hrest⟩ := hcheck
    rw [planFields, ConfigPlans.Posed, field_eq_get hderef] at hposed
    rw [makeCounters, hderef, planFields, field_eq_get hderef]
    have hcounter := makeCounter_eq key value (actions.get key) hvalue hposed.1
    have hcounters := makeCounters_eq rest actionsParams hderef hrest hposed.2
    simp only [hcounter, hcounters, ConfigPlans.counters, Except.bind, bind]

end

/-! ## 2. The counters as wheels -/

section Wheels

variable [PerlNumber N]

/-- A counter that has been called, with the value that it returned. -/
def counterWheel : Wheel (Counter N × Json N) (Json N) where
  reading s := s.2
  advance s :=
    match s.1.call with
    | .error _ => none
    | .ok (value, overflow, counter) =>
      if value.isNull then none else some (overflow, counter, value)

/-- The counters of a hash, after the first call. -/
def rowWheel : Wheel (Counters N) (Fields N) where
  reading := Counters.doc
  advance s := s.callNext.toOption

theorem counterWheel_advance_eq_some {s s' : Counter N × Json N} {overflow : Bool} :
    counterWheel.advance s = some (overflow, s') ↔
      s.1.call = .ok (s'.2, overflow, s'.1) ∧ s'.2.isNull = false := by
  simp only [counterWheel]
  split
  next message hcall =>
    constructor
    · rintro ⟨⟩
    · rintro ⟨h, -⟩
      rw [hcall] at h
      cases h
  next value overflow' counter hcall =>
    rw [hcall]
    constructor
    · intro h
      split at h
      · cases h
      · cases h
        exact ⟨rfl, eq_false_of_ne_true ‹_›⟩
    · rintro ⟨⟨⟩, hnull⟩
      rw [if_neg (by rw [hnull]; exact Bool.false_ne_true)]

theorem counterWheel_advance_eq_none {s : Counter N × Json N} (h : counterWheel.advance s = none)
    (key : String) (value : Option (Json N)) (rest : Counters N) :
    ∃ message, (Counters.cons key s.1 value rest).callNext = .error message := by
  simp only [counterWheel] at h
  simp only [Counters.callNext]
  split at h
  next message hcall =>
    rw [hcall]
    exact ⟨message, rfl⟩
  next value overflow counter hcall =>
    split at h
    next hnull =>
      simp only [hcall, bind, Except.bind, if_pos hnull]
      exact ⟨_, rfl⟩
    next => cases h

/-- **The counters of a hash are a first wheel and the counters after it.** -/
theorem counterWheel_carries (key : String) :
    Wheel.Carries counterWheel rowWheel rowWheel
      (fun (s : Counter N × Json N) rest => .cons key s.1 (some s.2) rest) (.cons key) where
  reading _ _ := rfl
  stuck s rest h := by
    obtain ⟨message, herror⟩ := counterWheel_advance_eq_none h key (some s.2) rest
    simp only [rowWheel, herror, Except.toOption]
  turn s rest s' h := by
    obtain ⟨hcall, hnull⟩ := counterWheel_advance_eq_some.mp h
    simp only [rowWheel, Counters.callNext, hcall, hnull, bind, Except.bind, Bool.false_eq_true,
      if_false, Except.toOption]
  carry s rest s' h := by
    obtain ⟨hcall, hnull⟩ := counterWheel_advance_eq_some.mp h
    simp only [rowWheel, Counters.callNext, hcall, hnull, bind, Except.bind, Bool.false_eq_true,
      if_false, if_true]
    cases rest.callNext <;> rfl

/-! ## 3. A clean plan goes through its documents -/

theorem Counters.docIsEmpty_callFirst {counters called : Counters N}
    (h : counters.callFirst = .ok called) (hne : counters ≠ .nil) : called.docIsEmpty = false := by
  cases counters with
  | nil => exact absurd rfl hne
  | cons key counter value rest =>
    simp only [Counters.callFirst, bind_eq_ok] at h
    obtain ⟨⟨value, overflow, counter⟩, -, h⟩ := h
    split at h
    · cases h
    · split at h
      · cases h
      · simp only [bind_eq_ok] at h
        obtain ⟨rest, -, ⟨⟩⟩ := h
        rfl

theorem Counters.docIsEmpty_callNext {counters called : Counters N} {overflow : Bool}
    (h : counters.callNext = .ok (overflow, called)) (hne : counters ≠ .nil) :
    called.docIsEmpty = false := by
  cases counters with
  | nil => exact absurd rfl hne
  | cons key counter value rest =>
    simp only [Counters.callNext, bind_eq_ok] at h
    obtain ⟨⟨value, overflow, counter⟩, -, h⟩ := h
    split at h
    · cases h
    · split at h
      · simp only [bind_eq_ok] at h
        obtain ⟨⟨overflow, rest⟩, -, ⟨⟩⟩ := h
        rfl
      · cases h
        rfl

/-- The states in which the counter of a plan goes through the plan's documents. -/
structure ConfigPlan.Turns (plan : ConfigPlan N) (state : ℕ → Counter N × Json N) : Prop where
  cycles : counterWheel.Cycles plan.documents state
  first : plan.counter.call = .ok ((state 0).2, false, (state 0).1)
  defined : (state 0).2.isNull = false

structure ConfigPlans.Turns (plans : ConfigPlans N) (state : ℕ → Counters N) : Prop where
  cycles : rowWheel.Cycles plans.documents state
  first : plans.counters.callFirst = .ok (state 0)

theorem documents_constant (value : Json N) : (ConfigPlan.constant value).documents = [value] := rfl

theorem turns_constant {value : Json N} (h : value.isNull = false) :
    (ConfigPlan.constant value).Turns fun _ => (.constant value true, value) := by
  refine ⟨⟨fun m => ?_, fun m => ?_⟩, rfl, h⟩
  · rw [documents_constant, List.length_singleton, Nat.mod_one]
    rfl
  · rw [documents_constant, List.length_singleton, Nat.mod_one, decide_eq_true rfl]
    exact counterWheel_advance_eq_some.mpr ⟨rfl, h⟩

/-- The counter of a list after it has returned the value at `i`. -/
def listPlace (values : List (Json N)) (i : ℕ) : Counter N × Json N :=
  (if i + 1 ≥ values.length then .valueList values 0 true else .valueList values (i + 1) false,
    values.getD i .null)

theorem call_valueList (values : List (Json N)) (i : ℕ) (overflow : Bool) :
    (Counter.valueList values i overflow).call =
      .ok ((listPlace values i).2, overflow, (listPlace values i).1) := by
  simp only [Counter.call, listPlace]
  split <;> rfl

theorem documents_list (values : List (Json N)) : (ConfigPlan.list values).documents = values := by
  simp [ConfigPlan.documents, ConfigPlan.listed, List.sections, ConfigPlan.fill, Function.comp_def]

theorem turns_list {values : List (Json N)} (hne : values ≠ [])
    (h : ∀ value ∈ values, value.isNull = false) :
    (ConfigPlan.list values).Turns fun m =>
      listPlace values (m % (ConfigPlan.list values).documents.length) := by
  have hpos := List.length_pos_of_ne_nil hne
  have hget : ∀ i < values.length, values[i]? = some (listPlace values i).2 := fun i hi => by
    rw [listPlace, List.getD_eq_getElem?_getD, List.getElem?_eq_getElem hi, Option.getD_some]
  have hdefined : ∀ i < values.length, (listPlace values i).2.isNull = false := fun i hi =>
    h _ (List.mem_of_getElem? (hget i hi))
  refine ⟨?_, ?_, ?_⟩
  · rw [documents_list]
    refine Wheel.cycles_of_places hpos hget (fun i hi => ?_) fun i hi => ?_
    · refine counterWheel_advance_eq_some.mpr ⟨?_, hdefined _ hi⟩
      rw [← call_valueList, listPlace, if_neg (by omega)]
    · refine counterWheel_advance_eq_some.mpr ⟨?_, hdefined 0 hpos⟩
      rw [← call_valueList, listPlace, if_pos (by omega)]
  · rw [Nat.zero_mod]
    exact call_valueList values 0 false
  · rw [Nat.zero_mod]
    exact hdefined 0 hpos

/-- The counter of a range after it has returned the value at `i`. -/
def rangePlace (min max step : Json N) (i : ℕ) : Counter N × Json N :=
  (if isLast max step (rangeValue min step i) then .numeric min max step min true
    else .numeric min max step (rangeValue min step (i + 1)) false, rangeValue min step i)

theorem call_numeric (min max step : Json N) (i : ℕ) (overflow : Bool) :
    (Counter.numeric min max step (rangeValue min step i) overflow).call =
      .ok ((rangePlace min max step i).2, overflow, (rangePlace min max step i).1) := by
  by_cases h : isLast max step (rangeValue min step i) = true
  · rw [rangePlace, if_pos h]
    rw [isLast] at h
    simp only [Counter.call, if_pos h]
  · rw [rangePlace, if_neg h]
    rw [isLast] at h
    simp only [Counter.call, if_neg h]
    rfl

theorem isNull_rangeValue {min : Json N} (h : min.isNumber = true) (step : Json N) :
    ∀ i, (rangeValue min step i).isNull = false
  | 0 => isNull_of_isNumber h
  | _ + 1 => rfl

theorem documents_range {min max step : Json N} :
    (ConfigPlan.range min max step).documents = rangeValues min max step := by
  simp [ConfigPlan.documents, ConfigPlan.listed, List.sections, ConfigPlan.fill, Function.comp_def]

theorem turns_range {min max step : Json N} (hmin : min.isNumber = true)
    (h : RangeEnds min max step) :
    (ConfigPlan.range min max step).Turns fun m =>
      rangePlace min max step (m % (ConfigPlan.range min max step).documents.length) := by
  classical
  have hdefined := isNull_rangeValue hmin step
  have hvalues : rangeValues min max step =
      (List.range (Nat.find h + 1)).map (rangeValue min step) := dif_pos h
  have hlength : (rangeValues min max step).length = Nat.find h + 1 := by
    rw [hvalues, List.length_map, List.length_range]
  refine ⟨?_, ?_, ?_⟩
  · rw [documents_range]
    refine Wheel.cycles_of_places (by omega) (fun i hi => ?_) (fun i hi => ?_) fun i hi => ?_
    · rw [hvalues, List.getElem?_map, List.getElem?_range (by omega)]
      rfl
    · refine counterWheel_advance_eq_some.mpr ⟨?_, hdefined _⟩
      have hlast : ¬isLast max step (rangeValue min step i) = true :=
        Nat.find_min h (by omega)
      rw [← call_numeric, rangePlace, if_neg hlast]
    · refine counterWheel_advance_eq_some.mpr ⟨?_, hdefined _⟩
      obtain rfl : i = Nat.find h := by omega
      rw [← call_numeric, rangePlace, if_pos (Nat.find_spec h)]
      rfl
  · rw [Nat.zero_mod]
    exact call_numeric min max step 0 false
  · rw [Nat.zero_mod]
    exact hdefined 0

theorem ConfigPlan.documents_object (fields : ConfigPlans N) :
    (ConfigPlan.object fields).documents = fields.documents.map .object := by
  rw [ConfigPlan.documents, ConfigPlans.documents, List.map_map]
  rfl

theorem ConfigPlans.Turns.callNext {plans : ConfigPlans N} {state : ℕ → Counters N}
    (h : plans.Turns state) (m : ℕ) : (state m).callNext =
      .ok (decide ((m + 1) % plans.documents.length = 0), state (m + 1)) := by
  have hadvance := h.cycles.advance m
  simp only [rowWheel] at hadvance
  cases hcall : (state m).callNext with
  | error message =>
    rw [hcall] at hadvance
    cases hadvance
  | ok next =>
    rw [hcall] at hadvance
    exact congrArg Except.ok (Option.some.inj hadvance)

theorem ConfigPlans.Turns.docIsEmpty {plans : ConfigPlans N} {state : ℕ → Counters N}
    (h : plans.Turns state) (hne : plans ≠ .nil) : ∀ m, (state m).docIsEmpty = false
  | 0 => by
    refine Counters.docIsEmpty_callFirst h.first ?_
    cases plans with
    | nil => exact absurd rfl hne
    | cons key plan rest => rintro ⟨⟩
  | m + 1 => Counters.docIsEmpty_callNext (h.callNext m)
      (Counters.ne_nil_of_docIsEmpty (h.docIsEmpty hne m))

theorem turns_object {fields : ConfigPlans N} {state : ℕ → Counters N} (h : fields.Turns state)
    (hne : fields ≠ .nil) :
    (ConfigPlan.object fields).Turns fun m => (.hash (state m), .object (state m).doc) := by
  have hempty := h.docIsEmpty hne
  refine ⟨⟨fun m => ?_, fun m => ?_⟩, ?_, rfl⟩
  · rw [ConfigPlan.documents_object, List.length_map, List.getElem?_map, h.cycles.reading]
    rfl
  · rw [ConfigPlan.documents_object, List.length_map]
    refine counterWheel_advance_eq_some.mpr ⟨?_, rfl⟩
    simp only [Counter.call, hempty, Bool.false_eq_true, if_false, h.callNext, bind, Except.bind]
  · simp only [ConfigPlan.counter, Counter.call, fields.docIsEmpty_counters, if_true, h.first, bind,
      Except.bind]

theorem turns_nil : (ConfigPlans.nil : ConfigPlans N).Turns fun _ => .nil := by
  have hdocuments : (ConfigPlans.nil : ConfigPlans N).documents = [.nil] := rfl
  refine ⟨⟨fun m => ?_, fun m => ?_⟩, rfl⟩
  · rw [hdocuments, List.length_singleton, Nat.mod_one]
    rfl
  · rw [hdocuments, List.length_singleton, Nat.mod_one]
    rfl

theorem turns_cons (key : String) {plan : ConfigPlan N} {rest : ConfigPlans N}
    {state : ℕ → Counter N × Json N} {states : ℕ → Counters N} (h : plan.Turns state)
    (hrest : rest.Turns states) :
    (ConfigPlans.cons key plan rest).Turns fun m => .cons key (state m).1 (some (state m).2)
      (states (m / plan.documents.length)) := by
  refine ⟨?_, ?_⟩
  · rw [ConfigPlans.documents_cons]
    exact (counterWheel_carries key).cycles h.cycles hrest.cycles
  · simp only [ConfigPlans.counters, Counters.callFirst, h.first, h.defined, hrest.first, bind,
      Except.bind, Bool.false_eq_true, if_false, Nat.zero_div]

mutual

/-- **The counter of a clean plan goes through the plan's documents, over and over.** -/
theorem ConfigPlan.turns : ∀ plan : ConfigPlan N, plan.Posed → plan.Clean →
    ∃ state, plan.Turns state
  | .constant _, _, hclean => ⟨_, turns_constant hclean⟩
  | .list _, hposed, hclean => ⟨_, turns_list hposed hclean⟩
  | .range _ _ _, hposed, hclean => ⟨_, turns_range hposed.1 hclean⟩
  | .object fields, hposed, hclean => by
    obtain ⟨states, h⟩ := fields.turns hposed hclean.2
    exact ⟨_, turns_object h hclean.1⟩

theorem ConfigPlans.turns : ∀ plans : ConfigPlans N, plans.Posed → plans.Clean →
    ∃ states, plans.Turns states
  | .nil, _, _ => ⟨_, turns_nil⟩
  | .cons key plan rest, hposed, hclean => by
    obtain ⟨state, h⟩ := plan.turns hposed.1 hclean.1
    obtain ⟨states, hrest⟩ := rest.turns hposed.2 hclean.2
    exact ⟨_, turns_cons key h hrest⟩

end

/-! ## 4. A counter overflows only if its plan is clean -/

theorem call_hash_eq_ok {counters : Counters N} {value : Json N} {overflow : Bool}
    {counter : Counter N} (h : (Counter.hash counters).call = .ok (value, overflow, counter)) :
    ∃ called, counter = .hash called ∧ value = .object called.doc ∧
      if counters.docIsEmpty then counters.callFirst = .ok called ∧ overflow = false
      else counters.callNext = .ok (overflow, called) := by
  rw [Counter.call] at h
  split at h
  next hempty =>
    obtain ⟨called, hcalled, ⟨⟩⟩ := bind_eq_ok.mp h
    exact ⟨called, rfl, rfl, by rw [if_pos hempty]; exact ⟨hcalled, rfl⟩⟩
  next hempty =>
    obtain ⟨⟨overflow, called⟩, hcalled, ⟨⟩⟩ := bind_eq_ok.mp h
    exact ⟨called, rfl, rfl, by rw [if_neg hempty]; exact hcalled⟩

/-- **The counter of an empty object never overflows**: each of its calls is a first call. -/
theorem not_overflows_hash_nil (value : Json N) :
    ¬counterWheel.Overflows ((.hash .nil, value) : Counter N × Json N) := by
  intro h
  generalize hs : ((.hash .nil, value) : Counter N × Json N) = s at h
  induction h generalizing value with
  | now hadvance =>
    subst hs
    obtain ⟨hcall, -⟩ := counterWheel_advance_eq_some.mp hadvance
    obtain ⟨called, -, -, -, ⟨⟩⟩ := call_hash_eq_ok hcall
  | @later s s' hadvance _ ih =>
    subst hs
    obtain ⟨hcall, -⟩ := counterWheel_advance_eq_some.mp hadvance
    obtain ⟨called, hcounter, -, hcalled, -⟩ := call_hash_eq_ok hcall
    cases hcalled
    exact ih s'.2 (Prod.ext hcounter.symm rfl)

/-- After its first call the counter of a hash overflows only if its row does. -/
theorem rowWheel_overflows {counters : Counters N} {value : Json N}
    (h : counterWheel.Overflows (.hash counters, value)) (hempty : counters.docIsEmpty = false) :
    rowWheel.Overflows counters := by
  generalize hs : ((.hash counters, value) : Counter N × Json N) = s at h
  induction h generalizing counters value with
  | now hadvance =>
    subst hs
    obtain ⟨hcall, -⟩ := counterWheel_advance_eq_some.mp hadvance
    obtain ⟨called, -, -, hnext⟩ := call_hash_eq_ok hcall
    rw [if_neg (by rw [hempty]; exact Bool.false_ne_true)] at hnext
    exact .now (congrArg Except.toOption hnext)
  | @later s s' hadvance _ ih =>
    subst hs
    obtain ⟨hcall, -⟩ := counterWheel_advance_eq_some.mp hadvance
    obtain ⟨called, hcounter, -, hnext⟩ := call_hash_eq_ok hcall
    rw [if_neg (by rw [hempty]; exact Bool.false_ne_true)] at hnext
    have hcalled := Counters.docIsEmpty_callNext hnext (Counters.ne_nil_of_docIsEmpty hempty)
    exact .later (congrArg Except.toOption hnext)
      (@ih called s'.2 hcalled (Prod.ext hcounter.symm rfl))

theorem advance_of_call {s s' place : Counter N × Json N} {overflow overflow' : Bool}
    (hadvance : counterWheel.advance s = some (overflow', s'))
    (hcall : s.1.call = .ok (place.2, overflow, place.1)) :
    overflow' = overflow ∧ s' = place ∧ place.2.isNull = false := by
  obtain ⟨hcall', hdefined⟩ := counterWheel_advance_eq_some.mp hadvance
  rw [hcall, Except.ok.injEq, Prod.mk.injEq, Prod.mk.injEq] at hcall'
  obtain ⟨hvalue, hoverflow, hcounter⟩ := hcall'
  exact ⟨hoverflow.symm, Prod.ext hcounter.symm hvalue.symm, by rw [hvalue]; exact hdefined⟩

theorem clean_of_list_overflows {values : List (Json N)} {i : ℕ} {s : Counter N × Json N}
    (h : counterWheel.Overflows s) (hs : s.1 = .valueList values i false) :
    ∀ j, i ≤ j → j < values.length → (values.getD j .null).isNull = false := by
  induction h generalizing i with
  | now hadvance =>
    have hcall := call_valueList values i false
    rw [← hs] at hcall
    obtain ⟨⟨⟩, -⟩ := advance_of_call hadvance hcall
  | later hadvance _ ih =>
    have hcall := call_valueList values i false
    rw [← hs] at hcall
    obtain ⟨-, rfl, hdefined⟩ := advance_of_call hadvance hcall
    intro j hij hj
    rcases eq_or_lt_of_le hij with rfl | hlt
    · exact hdefined
    · exact ih (if_neg (by omega)) j hlt hj

theorem rangeEnds_of_overflows {min max step : Json N} {i : ℕ} {s : Counter N × Json N}
    (h : counterWheel.Overflows s)
    (hs : s.1 = .numeric min max step (rangeValue min step i) false) : RangeEnds min max step := by
  induction h generalizing i with
  | now hadvance =>
    have hcall := call_numeric min max step i false
    rw [← hs] at hcall
    obtain ⟨⟨⟩, -⟩ := advance_of_call hadvance hcall
  | later hadvance _ ih =>
    have hcall := call_numeric min max step i false
    rw [← hs] at hcall
    obtain ⟨-, rfl, -⟩ := advance_of_call hadvance hcall
    by_cases hlast : isLast max step (rangeValue min step i) = true
    · exact ⟨i, hlast⟩
    · exact ih (if_neg hlast)

mutual

/-- **A counter overflows only if its plan is clean.** -/
theorem ConfigPlan.clean_of_overflows : ∀ (plan : ConfigPlan N) (value : Json N),
    counterWheel.Overflows (plan.counter, value) → plan.Clean
  | .constant value, _, h => by
    let place : Counter N × Json N := (.constant value true, value)
    have hcall : (makeConstant value).call = .ok (place.2, false, place.1) := rfl
    cases h with
    | now hadvance =>
      obtain ⟨⟨⟩, -⟩ := advance_of_call hadvance hcall
    | later hadvance _ =>
      obtain ⟨-, -, hdefined⟩ := advance_of_call hadvance hcall
      exact hdefined
  | .list values, _, h => by
    intro value hmem
    obtain ⟨j, hj, rfl⟩ := List.getElem_of_mem hmem
    have hdefined := clean_of_list_overflows h rfl j (Nat.zero_le j) hj
    rwa [List.getD_eq_getElem?_getD, List.getElem?_eq_getElem hj, Option.getD_some] at hdefined
  | .range min max step, _, h => rangeEnds_of_overflows (i := 0) h rfl
  | .object .nil, value, h => absurd h (not_overflows_hash_nil value)
  | .object (.cons key plan rest), _, h => by
    refine ⟨by rintro ⟨⟩, ?_⟩
    cases h with
    | now hadvance =>
      obtain ⟨hcall, -⟩ := counterWheel_advance_eq_some.mp hadvance
      obtain ⟨called, -, -, hfirst⟩ := call_hash_eq_ok hcall
      rw [if_pos (ConfigPlans.docIsEmpty_counters _)] at hfirst
      cases hfirst.2
    | @later s s' hadvance h =>
      obtain ⟨hcall, -⟩ := counterWheel_advance_eq_some.mp hadvance
      obtain ⟨called, hcounter, -, hfirst⟩ := call_hash_eq_ok hcall
      rw [if_pos (ConfigPlans.docIsEmpty_counters _)] at hfirst
      have hempty := Counters.docIsEmpty_callFirst hfirst.1 (by rintro ⟨⟩)
      have hhash : counterWheel.Overflows (.hash called, s'.2) := by
        rw [← hcounter]
        exact h
      exact ConfigPlans.clean_of_overflows (.cons key plan rest) hfirst.1
        (rowWheel_overflows hhash hempty)

theorem ConfigPlans.clean_of_overflows : ∀ (plans : ConfigPlans N) {called : Counters N},
    plans.counters.callFirst = .ok called → rowWheel.Overflows called → plans.Clean
  | .nil, _, _, _ => trivial
  | .cons key plan rest, called, hfirst, hover => by
    simp only [ConfigPlans.counters, Counters.callFirst, bind_eq_ok] at hfirst
    obtain ⟨⟨value, overflow, counter⟩, hcall, hfirst⟩ := hfirst
    split at hfirst
    · cases hfirst
    next hoverflow =>
      split at hfirst
      · cases hfirst
      next hdefined =>
        obtain ⟨calledRest, hrest, ⟨⟩⟩ := bind_eq_ok.mp hfirst
        obtain ⟨hcounter, hrow⟩ :=
          (counterWheel_carries key).overflows (s := (counter, value)) hover
        have hadvance : counterWheel.advance (plan.counter, value) =
            some (false, counter, value) := by
          obtain rfl : overflow = false := eq_false_of_ne_true hoverflow
          exact counterWheel_advance_eq_some.mpr ⟨hcall, eq_false_of_ne_true hdefined⟩
        exact ⟨plan.clean_of_overflows value (.later hadvance hcounter),
          rest.clean_of_overflows hrest hrow⟩

end

end Wheels

/-! ## 5. The generator -/

section Generator

variable [PerlNumber N]

/-- The loop returns the documents of a counter that goes through them: here `m + 1` of them have
been collected, and `n + 1` calls are to come. -/
theorem generateDocuments_of_turns {plan : ConfigPlan N} {state : ℕ → Counter N × Json N}
    (h : plan.Turns state) : ∀ n m, m + n + 1 = plan.documents.length →
      generateDocuments (n + 1) (state m).1 (plan.documents.take (m + 1)) =
        .returned plan.documents
  | 0, m, hlast => by
    obtain ⟨hcall, -⟩ := counterWheel_advance_eq_some.mp (h.cycles.advance m)
    have hover : (m + 1) % plan.documents.length = 0 := by
      rw [show m + 1 = plan.documents.length by omega, Nat.mod_self]
    simp only [generateDocuments, hcall, hover, decide_true, if_true]
    rw [List.take_of_length_le (by omega)]
  | n + 1, m, hmore => by
    obtain ⟨hcall, -⟩ := counterWheel_advance_eq_some.mp (h.cycles.advance m)
    have hmod : (m + 1) % plan.documents.length = m + 1 := Nat.mod_eq_of_lt (by omega)
    have hread := h.cycles.reading (m + 1)
    have ih := generateDocuments_of_turns h n (m + 1) (by omega)
    rw [hmod] at hread
    rw [List.take_add_one, hread] at ih
    rw [generateDocuments]
    simp only [hcall, hmod, Nat.succ_ne_zero, decide_false, Bool.false_eq_true, if_false]
    exact ih

theorem generateDocuments_counter {plan : ConfigPlan N} {state : ℕ → Counter N × Json N}
    (h : plan.Turns state) :
    generateDocuments (plan.documents.length + 1) plan.counter [] = .returned plan.documents := by
  have hpos := h.cycles.length_pos
  have hread := h.cycles.reading 0
  have hrest := generateDocuments_of_turns h (plan.documents.length - 1) 0 (by omega)
  rw [Nat.zero_mod] at hread
  rw [List.take_add_one, hread, Nat.sub_add_cancel hpos] at hrest
  simp only [generateDocuments, h.first, Bool.false_eq_true, if_false]
  exact hrest

/-- The loop returns only if the generator overflows. -/
theorem overflows_of_generateDocuments : ∀ (fuel : ℕ) (counters : Counters N) (value : Json N)
    (documents : List (Json N)) {result : List (Json N)},
    generateDocuments fuel (.hash counters) documents = .returned result →
      counterWheel.Overflows (.hash counters, value)
  | 0, _, _, _, _, h => by cases h
  | fuel + 1, counters, value, documents, _, h => by
    rw [generateDocuments] at h
    split at h
    · cases h
    next doc overflow generator hcall =>
      obtain ⟨called, rfl, rfl, -⟩ := call_hash_eq_ok hcall
      split at h
      next hover =>
        subst hover
        have hadvance : counterWheel.advance (.hash counters, value) =
            some (true, .hash called, .object called.doc) :=
          counterWheel_advance_eq_some.mpr ⟨hcall, rfl⟩
        exact .now hadvance
      next hover =>
        obtain rfl : overflow = false := eq_false_of_ne_true hover
        have hadvance : counterWheel.advance (.hash counters, value) =
            some (false, .hash called, .object called.doc) :=
          counterWheel_advance_eq_some.mpr ⟨hcall, rfl⟩
        exact .later hadvance (overflows_of_generateDocuments fuel called _ _ h)

theorem mkjsonconfigs_eq {templateFile : String} {template : Fields N} {actions : Json N}
    (haccepted : checkParameters templateFile template actions = .ok ())
    (hposed : (planFields template actions).Posed) (fuel : ℕ) :
    mkjsonconfigs templateFile fuel template actions =
      generateDocuments fuel (ConfigPlan.object (planFields template actions)).counter [] := by
  have hcheck := haccepted
  simp only [checkParameters, checkValue, bind_eq_ok] at hcheck
  obtain ⟨actionFields, hderef, hcheck⟩ := hcheck
  split at hcheck
  · cases hcheck
  · have hcounters := makeCounters_eq template actions hderef hcheck hposed
    simp only [mkjsonconfigs, haccepted, makeHashCounter, hcounters, bind, Except.bind]
    rfl

/-- **When the script returns every combination exactly once**, for all parameters that
`check_parameters` accepts, with lists that are not empty and ranges over numbers: no object of the
template that is visited is empty, no value is `null`, and every range ends. -/
theorem mkjsonconfigs_combinations (templateFile : String) (template : Fields N) (actions : Json N)
    (haccepted : checkParameters templateFile template actions = .ok ())
    (hposed : (planFields template actions).Posed) :
    ReturnsCombinations templateFile template actions ↔
      (ConfigPlan.object (planFields template actions)).Clean := by
  constructor
  · rintro ⟨⟨fuel, hreturned⟩, -, -⟩
    rw [mkjsonconfigs_eq haccepted hposed] at hreturned
    exact ConfigPlan.clean_of_overflows _ .null
      (overflows_of_generateDocuments fuel _ .null [] hreturned)
  · intro hclean
    obtain ⟨state, h⟩ := ConfigPlan.turns (.object (planFields template actions)) hposed hclean
    refine ⟨⟨(ConfigPlan.object (planFields template actions)).documents.length + 1, ?_⟩,
      fun choice hchoice choice' hchoice' heq => ?_, fun choice _ => ?_⟩
    · rw [mkjsonconfigs_eq haccepted hposed]
      exact generateDocuments_counter h
    · exact ConfigPlans.fill_injective _ (List.mem_sections_length hchoice)
        (List.mem_sections_length hchoice') heq
    · exact planFields_agrees template actions choice

end Generator

/-- Two protocols and three numbers of clients, in a part of a configuration. -/
def smallTemplate : Fields ℚ :=
  .cons "application" (.object (.cons "protocol" (.string "grv") .nil))
    (.cons "cluster" (.object
      (.cons "clients_per_partition" (.number 10) (.cons "replicas" (.number 3) .nil))) .nil)

def smallActions : Json ℚ :=
  .object (.cons "application"
    (.object (.cons "protocol" (.array [.string "gr", .string "grv"]) .nil))
    (.cons "cluster" (.object (.cons "clients_per_partition" (.object
      (.cons "max" (.number 6) (.cons "min" (.number 2) (.cons "step" (.number 2) .nil)))) .nil))
      .nil))

theorem mkjsonconfigs_combinations_small :
    ReturnsCombinations "config.json" smallTemplate smallActions := by
  refine (mkjsonconfigs_combinations "config.json" smallTemplate smallActions rfl ?_).mpr ?_
  · exact ⟨⟨List.cons_ne_nil _ _, trivial⟩, ⟨⟨rfl, rfl, rfl⟩, trivial, trivial⟩, trivial⟩
  · refine ⟨by rintro ⟨⟩, ⟨by rintro ⟨⟩, ?_, trivial⟩, ⟨by rintro ⟨⟩, ?_, rfl, trivial⟩, trivial⟩
    · intro value hvalue
      rcases List.mem_pair.mp hvalue with rfl | rfl <;> rfl
    · exact rangeEnds_exact 2 6 zero_le_two

/-- The actions visit an object that has no parameters. -/
def emptyTemplate : Fields ℚ :=
  .cons "client" (.object .nil) (.cons "cluster" (.object (.cons "replicas" (.number 3) .nil)) .nil)

def emptyActions : Json ℚ :=
  .object (.cons "client" (.object .nil) (.cons "cluster"
    (.object (.cons "replicas" (.array [.number 2, .number 3]) .nil)) .nil))

/-- The generator after its first call: no call changes it any more. -/
def stalledGenerator : Counter ℚ :=
  .hash (.cons "client" (.hash .nil) (some (.object .nil)) (.cons "cluster"
    (.hash (.cons "replicas" (.valueList [.number 2, .number 3] 1 false) (some (.number 2)) .nil))
    (some (.object (.cons "replicas" (.number 2) .nil))) .nil))

theorem generateDocuments_stalled : ∀ (fuel : ℕ) (documents : List (Json ℚ)),
    generateDocuments fuel stalledGenerator documents = .running
  | 0, _ => rfl
  | fuel + 1, _ => generateDocuments_stalled fuel _

/-- The script never returns, although it has only two documents to write. -/
theorem mkjsonconfigs_never_returns :
    checkParameters "config.json" emptyTemplate emptyActions = .ok () ∧
      (planFields emptyTemplate emptyActions).Posed ∧
      (∀ fuel, mkjsonconfigs "config.json" fuel emptyTemplate emptyActions = .running) ∧
      ¬ReturnsCombinations "config.json" emptyTemplate emptyActions := by
  have hrunning : ∀ fuel, mkjsonconfigs "config.json" fuel emptyTemplate emptyActions =
      .running := by
    intro fuel
    cases fuel with
    | zero => rfl
    | succ fuel => exact generateDocuments_stalled fuel _
  refine ⟨rfl, ⟨trivial, ⟨List.cons_ne_nil _ _, trivial⟩, trivial⟩, hrunning, fun h => ?_⟩
  obtain ⟨fuel, hreturned⟩ := h.returns
  rw [hrunning] at hreturned
  cases hreturned

end CCSim
