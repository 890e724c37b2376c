/-
# `scripts/mkjsonconfigs`

The script writes one configuration for each combination of the values that its second argument, the
actions, lists for parameters of its first one, the template.  The combinations come from counters,
which are closures: each parameter has one, an object has one for its keys, and when a counter comes
back to its first value the next key's counter is moved on.
-/
import Mathlib.Data.List.Basic

namespace CCSim

/-! ## 1. JSON -/

/- A hash is the list of its keys with their values, in the order of `sort keys`; nothing below
depends on this order. -/
mutual

inductive Json (N : Type)
  | null
  | bool (b : Bool)
  | number (x : N)
  | string (s : String)
  | array (values : List (Json N))
  | object (fields : Fields N)

inductive Fields (N : Type)
  | nil
  | cons (key : String) (value : Json N) (rest : Fields N)

end

/-- The interpreter's numbers. -/
class PerlNumber (N : Type) where
  add : N → N → N
  gt : N → N → Bool
  isZero : N → Bool
  /-- What a value that is no number counts for in arithmetic. -/
  ofValue : Json N → N

variable {N : Type}

/-- What `decode_json` makes of `null` is not `defined`. -/
def Json.isNull : Json N → Bool
  | .null => true
  | _ => false

def Json.isNumber : Json N → Bool
  | .number _ => true
  | _ => false

def Json.numeric [PerlNumber N] : Json N → N
  | .number x => x
  | value => PerlNumber.ofValue value

/-- `$fields{$k}`; a key that is missing is not `defined` either. -/
def Fields.get : Fields N → String → Json N
  | .nil, _ => .null
  | .cons key value rest, k => if key = k then value else rest.get k

def Fields.keys : Fields N → List String
  | .nil => []
  | .cons key _ rest => key :: rest.keys

/-- `%$value`: what is not a reference to a hash cannot be used as one.  An undefined value becomes
an empty hash. -/
def Json.deref : Json N → Except String (Fields N)
  | .object fields => .ok fields
  | .null => .ok .nil
  | _ => .error "Not a HASH reference"

/-! ## 2. The script -/

section CheckParameters

variable (templateFile : String)

mutual

/-- `check_parameters`, for a value of the template that is a hash; other values are not checked. -/
def checkValue : Json N → Json N → Except String Unit
  | .object template, actionsParams => do
    let actions ← actionsParams.deref
    match actions.keys.find? (· ∉ template.keys) with
    | some key => .error (key ++ " missing in " ++ templateFile)
    | none => checkFields template actions
  | _, _ => .ok ()

/-- The loop over the keys of the template. -/
def checkFields : Fields N → Fields N → Except String Unit
  | .nil, _ => .ok ()
  | .cons key value rest, actions => do
    checkValue value (actions.get key)
    checkFields rest actions

end

def checkParameters (template : Fields N) (actionsParams : Json N) : Except String Unit :=
  checkValue templateFile (.object template) actionsParams

end CheckParameters

mutual

/-- A counter is a closure; here it is the variables that the closure has kept. -/
inductive Counter (N : Type)
  | constant (value : Json N) (nextOverflow : Bool)
  | valueList (values : List (Json N)) (nextIndex : ℕ) (nextOverflow : Bool)
  | numeric (min max step next : Json N) (nextOverflow : Bool)
  | hash (counters : Counters N)

/-- `%counters` and `%doc`: with a key's counter stands its value in `%doc`, if it has one. -/
inductive Counters (N : Type)
  | nil
  | cons (key : String) (counter : Counter N) (value : Option (Json N)) (rest : Counters N)

end

def makeConstant (value : Json N) : Counter N :=
  .constant value false

def makeValueListCounter (values : List (Json N)) : Counter N :=
  .valueList values 0 false

def makeNumericCounter (min max step : Json N) : Counter N :=
  .numeric min max step min false

/-- `$value // die(message)` -/
def definedOrDie (value : Json N) (message : String) : Except String (Json N) :=
  if value.isNull then .error message else .ok value

/-- `$value // $default` -/
def definedOr (value default : Json N) : Json N :=
  if value.isNull then default else value

mutual

/-- `$v` in `make_hash_counter`, from the values at the key `k` of template and actions. -/
def makeCounter (k : String) : Json N → Json N → Except String (Counter N)
  | template, .null => .ok (makeConstant template)
  | .object template, action => do
    let counters ← makeCounters template action
    .ok (.hash counters)
  | _, .array values => .ok (makeValueListCounter values)
  | template, .object action => do
    let step ← definedOrDie (action.get "step") ("Missing step in object for " ++ k)
    let max ← definedOrDie (action.get "max") ("Missing max in object for " ++ k)
    .ok (makeNumericCounter (definedOr (action.get "min") template) max step)
  | template, _ => .ok (makeConstant template)

/-- `%counters` in `make_hash_counter` -/
def makeCounters : Fields N → Json N → Except String (Counters N)
  | .nil, _ => .ok .nil
  | .cons key value rest, actionsParams => do
    let actions ← actionsParams.deref
    let counter ← makeCounter key value (actions.get key)
    let counters ← makeCounters rest actionsParams
    .ok (.cons key counter none counters)

end

def makeHashCounter (template : Fields N) (actionsParams : Json N) : Except String (Counter N) := do
  let counters ← makeCounters template actionsParams
  .ok (.hash counters)

/-- `%doc` -/
def Counters.doc : Counters N → Fields N
  | .nil => .nil
  | .cons key _ (some value) rest => .cons key value rest.doc
  | .cons _ _ none rest => rest.doc

/-- `unless (keys %doc)` -/
def Counters.docIsEmpty : Counters N → Bool
  | .nil => true
  | .cons _ _ value rest => value.isNone && rest.docIsEmpty

mutual

/-- A call of the closure: the value and the overflow that it returns, and the closure after it. -/
def Counter.call [PerlNumber N] : Counter N → Except String (Json N × Bool × Counter N)
  | .constant value nextOverflow => .ok (value, nextOverflow, .constant value true)
  | .valueList values nextIndex nextOverflow =>
    let current := values.getD nextIndex .null
    if nextIndex + 1 ≥ values.length then
      .ok (current, nextOverflow, .valueList values 0 true)
    else
      .ok (current, nextOverflow, .valueList values (nextIndex + 1) false)
  | .numeric min max step next nextOverflow =>
    let sum := PerlNumber.add next.numeric step.numeric
    if PerlNumber.gt sum max.numeric || PerlNumber.isZero step.numeric then
      .ok (next, nextOverflow, .numeric min max step min true)
    else
      .ok (next, nextOverflow, .numeric min max step (.number sum) false)
  | .hash counters =>
    if counters.docIsEmpty then do
      let counters ← counters.callFirst
      .ok (.object counters.doc, false, .hash counters)
    else do
      let (overflow, counters) ← counters.callNext
      .ok (.object counters.doc, overflow, .hash counters)

/-- The loop of the first call. -/
def Counters.callFirst [PerlNumber N] : Counters N → Except String (Counters N)
  | .nil => .ok .nil
  | .cons key counter _ rest => do
    let (value, overflow, counter) ← counter.call
    if overflow then
      .error "Unexpected overflow"
    else if value.isNull then
      .error ("Counter for " ++ key ++ " returned an undefined value")
    else
      let rest ← rest.callFirst
      .ok (.cons key counter (some value) rest)

/-- The loop of the other calls, which ends at the first counter that does not overflow; the
overflow is the one of the last counter called. -/
def Counters.callNext [PerlNumber N] : Counters N → Except String (Bool × Counters N)
  | .nil => .ok (true, .nil)
  | .cons key counter _ rest => do
    let (value, overflow, counter) ← counter.call
    if value.isNull then
      .error ("Counter for " ++ key ++ " returned an undefined value")
    else if overflow then
      let (overflow, rest) ← rest.callNext
      .ok (overflow, .cons key counter (some value) rest)
    else
      .ok (false, .cons key counter (some value) rest)

end

/-- How far the script has come. -/
inductive Generation (N : Type)
  | running
  | died (message : String)
  | returned (documents : List (Json N))

/-- `generate_documents`, which calls the generator at most `fuel` times. -/
def generateDocuments [PerlNumber N] : ℕ → Counter N → List (Json N) → Generation N
  | 0, _, _ => .running
  | fuel + 1, generator, documents =>
    match generator.call with
    | .error message => .died message
    | .ok (doc, overflow, generator) =>
      if overflow then
        .returned documents
      else
        generateDocuments fuel generator (documents ++ [doc])

/-- The script, up to the documents that it writes. -/
def mkjsonconfigs [PerlNumber N] (templateFile : String) (fuel : ℕ) (template : Fields N)
    (actionsParams : Json N) : Generation N :=
  match checkParameters templateFile template actionsParams with
  | .error message => .died message
  | .ok () =>
    match makeHashCounter template actionsParams with
    | .error message => .died message
    | .ok generator => generateDocuments fuel generator []

end CCSim
