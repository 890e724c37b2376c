/-
# Chains of versions that replicas send to each other

Every replica keeps, for each key, a chain of versions with the newest on top, and accepts new
versions of its own.  What it accepts it sends to all others.  A replica puts the updates of each
origin into a queue and installs them one at a time, in two steps; an update that is older than
the top of its chain is dropped instead.  For each origin it also keeps an entry of a vector: a
time, raised by the updates it installs and by heartbeats, that is meant to say "I have everything
of this origin up to here".

The machine below makes every step whose order is not determined a step of its own, and takes
six conditions as parameters (`Discipline`):

* `inOrder`: the updates of one origin are looked at in the order in which they were sent;
* `beatsInOrder`: a heartbeat is looked at after the updates that were sent before it;
* `afterBeats`: a version is later than the heartbeats its origin has sent;
* `noPassing`: a heartbeat does not raise an entry beyond an update that waits in the queue;
* `noTie`: a version never covers one of the same time and a larger source;
* `noStall`: an update that is not dropped is installed.

Two results follow.  With the first five, the vector means what it is meant to mean
(`Reachable.covered`).  With the last two, replicas that have nothing left to do agree on the top
of every chain, and it is the newest version anybody accepted (`Reachable.agree`).
-/
import Mathlib.Data.Multiset.Count
import Mathlib.Data.Multiset.AddSub
import Mathlib.Data.Multiset.Filter
import Mathlib.Data.Multiset.MapFold
import Mathlib.Data.Multiset.UnionInter
import Mathlib.Order.Lattice
import Mathlib.Tactic.Common

namespace CCSim.Replication

/-! ## 1. Versions -/

/-- What a version says about itself. -/
class Versioned (V : Type) (R K T : outParam Type) where
  key : V → K
  time : V → T
  source : V → R

open Versioned

section Vocabulary

variable {V R K T : Type}

/-- A function of two arguments, changed in one place. -/
def set2 {A B C : Type} [DecidableEq A] [DecidableEq B] (f : A → B → C) (a : A) (b : B) (y : C) :
    A → B → C :=
  fun a' b' => if a' = a ∧ b' = b then y else f a' b'

@[simp, grind =]
theorem set2_apply {A B C : Type} [DecidableEq A] [DecidableEq B] (f : A → B → C) (a a' : A)
    (b b' : B) (y : C) : set2 f a b y a' b' = if a' = a ∧ b' = b then y else f a' b' := rfl

/-- A step somebody has yet to take: look at an update or a heartbeat that has arrived, install
an update or raise a vector entry, let an installed update leave its queue. -/
inductive Job (V R T : Type)
  | update (r : R) (v : V)
  | install (r : R) (v : V)
  | leave (r : R) (v : V)
  | beat (r j : R) (y : T)
  | raise (r j : R) (y : T)

/-- The state of all replicas.  `making r i` is a version `r` has accepted and not sent yet, at
most one in each slot `i`; `floor r` is the last time `r` has given to a version, and `promised r`
the last one it has sent in a heartbeat. -/
@[ext]
structure State (V R K T : Type) where
  chain : R → K → List V
  vector : R → R → T
  queue : R → R → List V
  making : R → ℕ → Option V
  floor : R → T
  promised : R → T
  jobs : Multiset (Job V R T)

/-- The conditions on a run. -/
structure Discipline where
  inOrder : Prop
  beatsInOrder : Prop
  afterBeats : Prop
  noPassing : Prop
  noTie : Prop
  noStall : Prop

/-- An update for each of the replicas `l`. -/
def updates (l : List R) (v : V) : Multiset (Job V R T) :=
  (l.map (Job.update · v) : List (Job V R T))

/-- A heartbeat of `r` for each of the replicas `l`. -/
def beats (l : List R) (r : R) (y : T) : Multiset (Job V R T) :=
  (l.map (Job.beat · r y) : List (Job V R T))

/-- The update the work on a queue of `r` has come to, if any. -/
def next (r : R) (l : Option V) : Multiset (Job V R T) :=
  (l.toList.map (Job.install r) : List (Job V R T))

@[simp, grind =]
theorem mem_updates {a : Job V R T} {l : List R} {v : V} :
    a ∈ updates l v ↔ ∃ r ∈ l, a = .update r v := by
  simp [updates, eq_comm]

@[simp, grind =]
theorem mem_beats {a : Job V R T} {l : List R} {r : R} {y : T} :
    a ∈ beats l r y ↔ ∃ j ∈ l, a = .beat j r y := by
  simp [beats, eq_comm]

@[simp, grind =]
theorem mem_next {a : Job V R T} {r : R} {l : Option V} :
    a ∈ next r l ↔ ∃ v, l = some v ∧ a = .install r v := by
  simp [next, eq_comm]

end Vocabulary

variable {V R K T : Type} [Versioned V R K T] [LinearOrder R] [LinearOrder T]

/-- The order that decides conflicts: by time, then by source. -/
def Older (v w : V) : Prop := time v < time w ∨ time v = time w ∧ source v < source w

theorem Older.trans {u v w : V} (h : Older u v) (h' : Older v w) : Older u w := by
  unfold Older at *
  rcases h with h | ⟨h1, h2⟩ <;> rcases h' with h' | ⟨h3, h4⟩
  · exact .inl (h.trans h')
  · exact .inl (h3 ▸ h)
  · exact .inl (h1 ▸ h')
  · exact .inr ⟨h1.trans h3, h2.trans h4⟩

theorem Older.irrefl (v : V) : ¬Older v v := by
  rintro (h | ⟨-, h⟩) <;> exact lt_irrefl _ h

/-- The top of a chain is newer than `v`. -/
def Covers (chain : List V) (v : V) : Prop := ∃ h ∈ chain.head?, Older v h

/-- `Works chain q q' l`: working on the queue `q` leaves `q'`, with the update `l` to install.
Updates that are covered are dropped from the front; the work may stall before an update. -/
inductive Works (d : Discipline) (chain : K → List V) : List V → List V → Option V → Prop
  | nil : Works d chain [] [] none
  | drop {v : V} {q q' : List V} {l : Option V} (hv : Covers (chain (key v)) v)
      (h : Works d chain q q' l) : Works d chain (v :: q) q' l
  | install (v : V) (q : List V) : Works d chain (v :: q) (v :: q) (some v)
  | stall (hd : ¬d.noStall) (v : V) (q : List V) : Works d chain (v :: q) (v :: q) none

/-- The chain after an update is installed: one that is older in time is discarded. -/
def installed (v : V) : List V → List V
  | [] => [v]
  | h :: chain => if time v < time h then h :: chain else v :: h :: chain

/-- No version on top of this chain has the time of `v` and a larger source. -/
def NoTie (chain : List V) (v : V) : Prop :=
  ∀ h ∈ chain.head?, time h = time v → ¬source v < source h

/-! ## 2. The machine -/

section Machine

variable [DecidableEq K] [Zero T]

/-- One step of one replica. -/
inductive Step (d : Discipline) : State V R K T → State V R K T → Prop
  | accept {x : State V R K T} {v : V} (i : ℕ) (hf : x.floor (source v) < time v)
      (hp : d.afterBeats → x.promised (source v) < time v)
      (hm : ∀ i, x.making (source v) i = none)
      (hh : ∀ h ∈ (x.chain (source v) (key v)).head?, time h ≤ time v)
      (ht : d.noTie → NoTie (x.chain (source v) (key v)) v) :
      Step d x { x with
        chain := set2 x.chain (source v) (key v) (v :: x.chain (source v) (key v))
        making := set2 x.making (source v) i (some v)
        floor := Function.update x.floor (source v) (time v) }
  | send {x : State V R K T} {r : R} {i : ℕ} {v : V} {l : List R} (hv : x.making r i = some v)
      (hl : ∀ j, j ∈ l ↔ j ≠ r) (hd : l.Nodup) :
      Step d x { x with
        making := set2 x.making r i none
        jobs := x.jobs + updates l v }
  | promise {x : State V R K T} {r : R} {y : T} {l : List R} (hm : ∀ i, x.making r i = none)
      (hp : x.promised r ≤ y) (hl : ∀ j ∈ l, j ≠ r) :
      Step d x { x with
        promised := Function.update x.promised r y
        jobs := x.jobs + beats l r y }
  | tick {x : State V R K T} {r : R} {l : List R} (hl : ∀ j ∈ l, j ≠ r) :
      Step d x { x with jobs := x.jobs + beats l r 0 }
  | beat {x : State V R K T} {r j : R} {y : T} {jobs : Multiset (Job V R T)} (b : Bool)
      (hj : x.jobs = .beat r j y ::ₘ jobs)
      (ho : d.beatsInOrder → ∀ v, .update r v ∈ jobs → source v = j → y < time v) :
      Step d x { x with jobs := if b then .raise r j y ::ₘ jobs else jobs }
  | raise {x : State V R K T} {r j : R} {y : T} {jobs : Multiset (Job V R T)}
      (hj : x.jobs = .raise r j y ::ₘ jobs)
      (hq : d.noPassing → ∀ v ∈ x.queue r j, y < time v ∨ time v ≤ x.vector r j) :
      Step d x { x with vector := set2 x.vector r j (max (x.vector r j) y), jobs := jobs }
  | queue {x : State V R K T} {r : R} {v : V} {jobs : Multiset (Job V R T)}
      (hj : x.jobs = .update r v ::ₘ jobs) (hr : source v ≠ r)
      (ho : d.inOrder → ∀ w, .update r w ∈ jobs → source w = source v → time v ≤ time w)
      (hq : x.queue r (source v) ≠ []) :
      Step d x { x with
        queue := set2 x.queue r (source v) (x.queue r (source v) ++ [v]), jobs := jobs }
  | work {x : State V R K T} {r : R} {v : V} {q : List V} {l : Option V}
      {jobs : Multiset (Job V R T)} (hj : x.jobs = .update r v ::ₘ jobs) (hr : source v ≠ r)
      (ho : d.inOrder → ∀ w, .update r w ∈ jobs → source w = source v → time v ≤ time w)
      (hq : x.queue r (source v) = []) (hw : Works d (x.chain r) [v] q l) :
      Step d x { x with
        queue := set2 x.queue r (source v) q
        jobs := next r l + jobs }
  | install {x : State V R K T} {r : R} {v : V} {jobs : Multiset (Job V R T)}
      (hj : x.jobs = .install r v ::ₘ jobs) (ht : d.noTie → NoTie (x.chain r (key v)) v) :
      Step d x { x with
        chain := set2 x.chain r (key v) (installed v (x.chain r (key v)))
        vector := set2 x.vector r (source v) (time v)
        jobs := .leave r v ::ₘ jobs }
  | leave {x : State V R K T} {r : R} {v : V} {q q' : List V} {l : Option V}
      {jobs : Multiset (Job V R T)} (hj : x.jobs = .leave r v ::ₘ jobs)
      (hq : x.queue r (source v) = v :: q) (hw : Works d (x.chain r) q q' l) :
      Step d x { x with
        queue := set2 x.queue r (source v) q'
        jobs := next r l + jobs }

/-- The state in which nothing has happened. -/
def init : State V R K T where
  chain _ _ := []
  vector _ _ := 0
  queue _ _ := []
  making _ _ := none
  floor _ := 0
  promised _ := 0
  jobs := 0

/-- The states that can be reached under a discipline. -/
def Reachable (d : Discipline) (x : State V R K T) : Prop :=
  Relation.ReflTransGen (Step d) init x

end Machine

/-! ## 3. Chains and queues -/

omit [LinearOrder R] in
theorem installed_cons (v h : V) (l : List V) :
    installed v (h :: l) = if time v < time h then h :: l else v :: h :: l := rfl

omit [LinearOrder R] in
theorem installed_suffix (v : V) (l : List V) : l <:+ installed v l := by
  cases l with
  | nil => exact List.nil_suffix
  | cons h l =>
    rw [installed_cons]
    split
    · exact List.suffix_refl _
    · exact List.suffix_cons _ _

omit [LinearOrder R] in
theorem mem_installed {v w : V} {l : List V} (h : w ∈ installed v l) : w = v ∨ w ∈ l := by
  cases l with
  | nil => exact .inl (List.mem_singleton.mp h)
  | cons g l =>
    rw [installed_cons] at h
    split at h
    · exact .inr h
    · exact List.mem_cons.mp h

/-- A new top covers what the old one covered. -/
theorem Covers.cons {w v : V} {l : List V} (h : Covers l w) (hh : ∀ h ∈ l.head?, time h ≤ time v)
    (ht : NoTie l v) : Covers (v :: l) w := by
  obtain ⟨g, hg, hw⟩ := h
  have h1 := hh g hg
  have h2 := ht g hg
  refine ⟨v, rfl, ?_⟩
  unfold Older at *
  grind

theorem Covers.installed {w v : V} {l : List V} (h : Covers l w) (ht : NoTie l v) :
    Covers (installed v l) w := by
  cases l with
  | nil => obtain ⟨g, hg, -⟩ := h; cases hg
  | cons g l =>
    rw [installed_cons]
    split
    · exact h
    · refine h.cons (fun x hx => ?_) ht
      cases hx
      exact not_lt.mp ‹_›

/-- An installed update is in the chain, or the chain covers it. -/
theorem installed_done (v : V) (l : List V) : v ∈ installed v l ∨ Covers (installed v l) v := by
  cases l with
  | nil => exact .inl List.mem_cons_self
  | cons h l =>
    rw [installed_cons]
    split
    · exact .inr ⟨h, rfl, .inl ‹_›⟩
    · exact .inl List.mem_cons_self

section Works

variable {d : Discipline} {chain : K → List V} {q q' : List V} {l : Option V}

theorem Works.suffix (h : Works d chain q q' l) : q' <:+ q := by
  induction h with
  | nil => exact List.suffix_refl _
  | drop _ _ ih => exact ih.trans (List.suffix_cons _ _)
  | install => exact List.suffix_refl _
  | stall => exact List.suffix_refl _

theorem Works.subset (h : Works d chain q q' l) {v : V} (hv : v ∈ q') : v ∈ q :=
  h.suffix.subset hv

/-- The update to install stays in front of the queue. -/
theorem Works.front (h : Works d chain q q' l) {w : V} (hw : l = some w) : q'.head? = some w := by
  induction h with
  | nil => cases hw
  | drop _ _ ih => exact ih hw
  | install => cases hw; rfl
  | stall => cases hw

theorem Works.mem (h : Works d chain q q' l) {w : V} (hw : l = some w) : w ∈ q :=
  h.subset (List.mem_of_mem_head? (h.front hw))

/-- What leaves a queue is covered. -/
theorem Works.dropped (h : Works d chain q q' l) {v : V} (hv : v ∈ q) :
    v ∈ q' ∨ Covers (chain (key v)) v := by
  induction h with
  | nil => exact .inl hv
  | drop hc _ ih =>
    rcases List.mem_cons.mp hv with rfl | hv
    · exact .inr hc
    · exact ih hv
  | install => exact .inl hv
  | stall => exact .inl hv

/-- Work that does not stall empties the queue or comes to an update. -/
theorem Works.empty (h : Works d chain q q' l) (hd : d.noStall) (hl : l = none) : q' = [] := by
  induction h with
  | nil => rfl
  | drop _ _ ih => exact ih hl
  | install => cases hl
  | stall hn => exact absurd hd hn

end Works

section Work

variable {V R K T : Type} [Versioned V R K T] [DecidableEq R]

/-- The job is part of the work on the queue of `j` at `r`. -/
@[simp, grind =]
def Job.IsWork (r j : R) : Job V R T → Prop
  | .install r' v => r' = r ∧ source v = j
  | .leave r' v => r' = r ∧ source v = j
  | .update _ _ => False
  | .beat _ _ _ => False
  | .raise _ _ _ => False

instance (r j : R) : DecidablePred (Job.IsWork r j : Job V R T → Prop)
  | .update _ _ => .isFalse id
  | .install _ _ => inferInstanceAs (Decidable (_ ∧ _))
  | .leave _ _ => inferInstanceAs (Decidable (_ ∧ _))
  | .beat _ _ _ => .isFalse id
  | .raise _ _ _ => .isFalse id

theorem countP_updates (r j : R) (v : V) (l : List R) :
    (updates l v : Multiset (Job V R T)).countP (Job.IsWork r j) = 0 := by
  rw [Multiset.countP_eq_zero]
  intro a ha
  obtain ⟨r', -, rfl⟩ := mem_updates.mp ha
  exact id

theorem countP_beats (r j r' : R) (y : T) (l : List R) :
    (beats l r' y : Multiset (Job V R T)).countP (Job.IsWork r j) = 0 := by
  rw [Multiset.countP_eq_zero]
  intro a ha
  obtain ⟨j', -, rfl⟩ := mem_beats.mp ha
  exact id

/-- Work on the queue of `j` at `r` comes to at most one job, and that is about this queue. -/
theorem countP_next {l : Option V} {j : R} (hl : ∀ v, l = some v → source v = j) (r r' j' : R) :
    (next r l : Multiset (Job V R T)).countP (Job.IsWork r' j') ≤
      if r' = r ∧ j' = j then 1 else 0 := by
  cases l with
  | none => exact Nat.zero_le _
  | some w =>
    have := hl w rfl
    rw [next, Multiset.coe_countP, Option.toList_some, List.map_singleton, List.countP_singleton]
    grind

end Work

section Sent

variable {V R T : Type}

/-- The version an update is about, with the replica that is to look at it. -/
def Job.sent : Job V R T → Option (R × V)
  | .update r v => some (r, v)
  | _ => none

theorem sent_updates (l : List R) (v : V) :
    (updates l v : Multiset (Job V R T)).filterMap Job.sent = (l.map (·, v) : List (R × V)) := by
  rw [updates, Multiset.filterMap_coe, List.filterMap_map, ← List.filterMap_eq_map]
  rfl

theorem sent_beats (l : List R) (r : R) (y : T) :
    (beats l r y : Multiset (Job V R T)).filterMap Job.sent = 0 := by
  rw [beats, Multiset.filterMap_coe, List.filterMap_map]
  exact congrArg _ (List.filterMap_eq_nil_iff.mpr fun _ _ => rfl)

theorem sent_next (r : R) (l : Option V) :
    (next r l : Multiset (Job V R T)).filterMap Job.sent = 0 := by
  cases l <;> rfl

end Sent

/-! ## 4. What holds in every state -/

section Machine

variable [DecidableEq K] [Zero T] {d : Discipline} {x y : State V R K T}

/-- Chains only grow. -/
theorem Step.suffix (h : Step d x y) (r : R) (k : K) : x.chain r k <:+ y.chain r k := by
  cases h <;> grind [installed_suffix]

theorem Step.chain_mem (h : Step d x y) {r : R} {k : K} {v : V} (hv : v ∈ x.chain r k) :
    v ∈ y.chain r k :=
  (h.suffix r k).subset hv

/-- What holds under any discipline: what is in a chain or on its way was accepted by its source,
and there is at most one job of work for each queue, about the update in front of it. -/
structure Basic (x : State V R K T) : Prop where
  key : ∀ r k v, v ∈ x.chain r k → key v = k
  floor : ∀ r, 0 ≤ x.floor r
  own : ∀ r k v, v ∈ x.chain r k → source v = r → 0 < time v ∧ time v ≤ x.floor r
  inj : ∀ k k' v w, v ∈ x.chain (source v) k → w ∈ x.chain (source w) k' →
    source v = source w → time v = time w → v = w
  chain : ∀ r k v, v ∈ x.chain r k → v ∈ x.chain (source v) (Versioned.key v)
  queue : ∀ r j v, v ∈ x.queue r j →
    source v = j ∧ j ≠ r ∧ v ∈ x.chain (source v) (Versioned.key v)
  update : ∀ r v, .update r v ∈ x.jobs →
    source v ≠ r ∧ v ∈ x.chain (source v) (Versioned.key v)
  beat : ∀ r j z, .beat r j z ∈ x.jobs → j ≠ r
  raise : ∀ r j z, .raise r j z ∈ x.jobs → j ≠ r
  making : ∀ r i v, x.making r i = some v → source v = r ∧ v ∈ x.chain r (Versioned.key v)
  slot : ∀ r i i' v w, x.making r i = some v → x.making r i' = some w → i = i'
  work : ∀ r j, x.jobs.countP (Job.IsWork r j) ≤ 1
  front : ∀ r v, .install r v ∈ x.jobs ∨ .leave r v ∈ x.jobs →
    (x.queue r (source v)).head? = some v

omit [DecidableEq K] in
theorem Basic.install (hx : Basic x) (r : R) (v : V) (h : .install r v ∈ x.jobs) :
    v ∈ x.queue r (source v) :=
  List.mem_of_mem_head? (hx.front r v (.inl h))

omit [DecidableEq K] in
theorem Basic.leave (hx : Basic x) (r : R) (v : V) (h : .leave r v ∈ x.jobs) :
    v ∈ x.queue r (source v) :=
  List.mem_of_mem_head? (hx.front r v (.inr h))

omit [DecidableEq K] in
/-- Besides one job of work on a queue there is no other. -/
theorem Basic.work_rest (hx : Basic x) {a : Job V R T} {rest : Multiset (Job V R T)}
    (hj : x.jobs = a ::ₘ rest) {r j : R} (ha : a.IsWork r j) : ∀ b ∈ rest, ¬b.IsWork r j := by
  have h := hx.work r j
  rw [hj, Multiset.countP_cons_of_pos _ ha] at h
  exact Multiset.countP_eq_zero.mp (by omega)

theorem Step.keeps_key (h : Step d x y) (hx : Basic x) : ∀ r k v, v ∈ y.chain r k → key v = k := by
  have h1 := hx.key
  cases h <;> grind [mem_installed]

theorem Step.keeps_floor (h : Step d x y) (hx : Basic x) : ∀ r, 0 ≤ y.floor r := by
  have h1 := hx.floor
  cases h <;> grind [Function.update_apply]

theorem Step.keeps_own (h : Step d x y) (hx : Basic x) :
    ∀ r k v, v ∈ y.chain r k → source v = r → 0 < time v ∧ time v ≤ y.floor r := by
  have h1 := hx.own
  have h2 := hx.floor
  have h3 := hx.queue
  have h4 := hx.install
  have h5 := hx.key
  cases h <;> grind [mem_installed, Function.update_apply]

/-- A replica gives no time twice, since what it accepts lies above its floor. -/
theorem Step.keeps_inj (h : Step d x y) (hx : Basic x) :
    ∀ k k' v w, v ∈ y.chain (source v) k → w ∈ y.chain (source w) k' →
      source v = source w → time v = time w → v = w := by
  have h1 := hx.own
  have h3 := hx.queue
  have h4 := hx.install
  have h5 := hx.inj
  have h6 := hx.key
  cases h <;> grind [mem_installed]

theorem Step.keeps_chain (h : Step d x y) (hx : Basic x) :
    ∀ r k v, v ∈ y.chain r k → v ∈ y.chain (source v) (Versioned.key v) := by
  have h1 := hx.chain
  have h3 := hx.queue
  have h4 := hx.install
  have h5 := hx.key
  have hs := fun r k v => h.chain_mem (r := r) (k := k) (v := v)
  cases h <;> grind [mem_installed]

theorem Step.keeps_queue_own (h : Step d x y) (hx : Basic x) :
    ∀ r j v, v ∈ y.queue r j →
      source v = j ∧ j ≠ r ∧ v ∈ y.chain (source v) (Versioned.key v) := by
  have h3 := hx.queue
  have h5 := hx.update
  have hs := fun r k v => h.chain_mem (r := r) (k := k) (v := v)
  cases h <;> grind [Works.subset]

theorem Step.keeps_update (h : Step d x y) (hx : Basic x) :
    ∀ r v, .update r v ∈ y.jobs → source v ≠ r ∧ v ∈ y.chain (source v) (Versioned.key v) := by
  have h3 := hx.update
  have h4 := hx.making
  have hs := fun r k v => h.chain_mem (r := r) (k := k) (v := v)
  cases h <;> grind

theorem Step.keeps_beat (h : Step d x y) (hx : Basic x) :
    ∀ r j z, .beat r j z ∈ y.jobs → j ≠ r := by
  have h1 := hx.beat
  cases h <;> grind

theorem Step.keeps_raise (h : Step d x y) (hx : Basic x) :
    ∀ r j z, .raise r j z ∈ y.jobs → j ≠ r := by
  have h1 := hx.beat
  have h2 := hx.raise
  cases h <;> grind

theorem Step.keeps_making (h : Step d x y) (hx : Basic x) :
    ∀ r i v, y.making r i = some v → source v = r ∧ v ∈ y.chain r (Versioned.key v) := by
  have h4 := hx.making
  have hs := fun r k v => h.chain_mem (r := r) (k := k) (v := v)
  cases h <;> grind

theorem Step.keeps_slot (h : Step d x y) (hx : Basic x) :
    ∀ r i i' v w, y.making r i = some v → y.making r i' = some w → i = i' := by
  have h4 := hx.slot
  cases h <;> grind

theorem Step.keeps_work_le (h : Step d x y) (hx : Basic x) (r j : R) :
    y.jobs.countP (Job.IsWork r j) ≤ 1 := by
  have h1 := hx.work r j
  cases h with
  | accept => exact h1
  | send => simpa only [Multiset.countP_add, countP_updates, Nat.add_zero]
  | promise => simpa only [Multiset.countP_add, countP_beats, Nat.add_zero]
  | tick => simpa only [Multiset.countP_add, countP_beats, Nat.add_zero]
  | beat b hj =>
    rw [hj] at h1
    cases b <;> simpa [Multiset.countP_cons] using h1
  | raise hj => simpa [hj, Multiset.countP_cons] using h1
  | queue hj => simpa [hj, Multiset.countP_cons] using h1
  | @work r' v q l jobs hj hr ho hq hw =>
    -- the queue was empty, so nobody was at work on it
    have h2 := countP_next (T := T) (l := l) (j := source v)
      (fun w hl => by rw [List.mem_singleton.mp (hw.mem hl)]) r' r j
    rw [hj, Multiset.countP_cons_of_neg _ (by simp)] at h1
    rw [Multiset.countP_add]
    split at h2 <;> rename_i hc
    · obtain ⟨rfl, rfl⟩ := hc
      have h3 : jobs.countP (Job.IsWork r (source v)) = 0 := by
        rw [Multiset.countP_eq_zero]
        intro a ha hw
        have hf := fun w => hx.front r w
        cases a <;> grind
      omega
    · omega
  | @install r' v jobs hj =>
    rw [hj, Multiset.countP_cons] at h1
    rw [Multiset.countP_cons]
    exact h1
  | @leave r' v q q' l jobs hj hq hw =>
    have hs : ∀ w, l = some w → source w = source v := fun w hl =>
      (hx.queue r' (source v) w (by rw [hq]; exact List.mem_cons_of_mem _ (hw.mem hl))).1
    have h2 := countP_next (T := T) hs r' r j
    rw [hj, Multiset.countP_cons] at h1
    rw [Multiset.countP_add]
    split at h2 <;> rename_i hc
    · obtain ⟨rfl, rfl⟩ := hc
      rw [if_pos (by exact ⟨rfl, rfl⟩)] at h1
      omega
    · omega

theorem Step.keeps_front (h : Step d x y) (hx : Basic x) :
    ∀ r v, .install r v ∈ y.jobs ∨ .leave r v ∈ y.jobs →
      (y.queue r (source v)).head? = some v := by
  have h1 := hx.front
  cases h with
  | @work r' v q l jobs hj hr ho hq hw =>
    have h2 := fun w => hw.front (w := w)
    have h3 := fun w => hw.mem (w := w)
    grind
  | @leave r' v q q' l jobs hj hq hw =>
    have h2 := hx.work_rest hj (r := r') (j := source v) ⟨rfl, rfl⟩
    have h3 := fun w => hw.front (w := w)
    have h4 := fun w => hw.mem (w := w)
    have h5 := hx.queue r' (source v)
    intro r w hw
    by_cases hc : r = r' ∧ source w = source v
    · have h6 := h2 (.install r w)
      have h7 := h2 (.leave r w)
      grind
    · grind
  | _ => grind

omit [DecidableEq K] in
theorem Basic.init : Basic (init : State V R K T) where
  key := by simp [Replication.init]
  floor := by simp [Replication.init]
  own := by simp [Replication.init]
  inj := by simp [Replication.init]
  chain := by simp [Replication.init]
  queue := by simp [Replication.init]
  update := by simp [Replication.init]
  beat := by simp [Replication.init]
  raise := by simp [Replication.init]
  making := by simp [Replication.init]
  slot := by simp [Replication.init]
  work := by simp [Replication.init]
  front := by simp [Replication.init]

theorem Basic.step (hx : Basic x) (h : Step d x y) : Basic y :=
  ⟨h.keeps_key hx, h.keeps_floor hx, h.keeps_own hx, h.keeps_inj hx, h.keeps_chain hx,
    h.keeps_queue_own hx, h.keeps_update hx, h.keeps_beat hx, h.keeps_raise hx, h.keeps_making hx,
    h.keeps_slot hx, h.keeps_work_le hx, h.keeps_front hx⟩

theorem Reachable.basic (h : Reachable d x) : Basic x := by
  induction h with
  | refl => exact Basic.init
  | tail _ hs ih => exact ih.step hs

/-! ## 5. What was sent arrives -/

/-- The replica `r` has nothing left to do about `v`. -/
def Done (x : State V R K T) (r : R) (v : V) : Prop :=
  v ∈ x.chain r (key v) ∨ Covers (x.chain r (key v)) v

theorem Step.covers (h : Step d x y) (hd : d.noTie) {r : R} {k : K} {v : V}
    (hv : Covers (x.chain r k) v) : Covers (y.chain r k) v := by
  cases h with
  | accept i hf hp hm hh ht =>
    simp only [set2_apply]
    split
    · rename_i hc
      obtain ⟨rfl, rfl⟩ := hc
      exact hv.cons hh (ht hd)
    · exact hv
  | install hj ht =>
    simp only [set2_apply]
    split
    · rename_i hc
      obtain ⟨rfl, rfl⟩ := hc
      exact hv.installed (ht hd)
    · exact hv
  | _ => exact hv

theorem Step.done (h : Step d x y) (hd : d.noTie) {r : R} {v : V} (hv : Done x r v) : Done y r v :=
  hv.imp h.chain_mem (h.covers hd)

/-- Every version is being sent, waits at the receiver, or is done with there. -/
structure Arrived (x : State V R K T) : Prop where
  arrive : ∀ r v, v ∈ x.chain (source v) (key v) → r ≠ source v →
    (∃ i, x.making (source v) i = some v) ∨ .update r v ∈ x.jobs ∨ v ∈ x.queue r (source v) ∨
      Done x r v
  left : ∀ r v, .leave r v ∈ x.jobs → Done x r v

theorem Step.keeps_arrive (h : Step d x y) (hx : Basic x) (hd : d.noTie) (ha : Arrived x) :
    ∀ r v, v ∈ y.chain (source v) (key v) → r ≠ source v →
      (∃ i, y.making (source v) i = some v) ∨ .update r v ∈ y.jobs ∨ v ∈ y.queue r (source v) ∨
        Done y r v := by
  have h1 := ha.arrive
  have h2 := ha.left
  have h3 := fun r v => h.done hd (r := r) (v := v)
  have h4 := hx.install
  have h5 := hx.queue
  cases h with
  | accept i hf hp hm hh ht =>
    intro r w hw hr
    simp only [set2_apply] at hw ⊢
    split at hw
    · rename_i hc
      rcases List.mem_cons.mp hw with rfl | hw
      · exact .inl ⟨i, by simp⟩
      · rw [← hc.1, ← hc.2] at hw
        grind
    · grind
  | @send r₀ i v l hv hl _ =>
    intro r w hw hr
    have h6 := hx.making
    rcases h1 r w hw hr with ⟨i', hi⟩ | h | h | h
    · by_cases hc : source w = r₀ ∧ i' = i
      · grind
      · exact .inl ⟨i', by simp only [set2_apply, if_neg hc, hi]⟩
    · grind
    · grind
    · grind
  | @work r' v q l jobs hj hr ho hq hw =>
    have h6 := fun v => hw.dropped (v := v)
    intro r w hv hr
    have h7 : Covers (x.chain r' (key v)) v → Done x r' v := .inr
    rcases h1 r w hv hr with h | h | h | h <;> grind
  | @install r' v jobs hj => grind [mem_installed]
  | @leave r' v q q' l jobs hj hq hw =>
    have h6 := fun v => hw.dropped (v := v)
    intro r w hv hr
    have h7 : Covers (x.chain r' (key w)) w → Done x r' w := .inr
    rcases h1 r w hv hr with h | h | h | h <;> grind
  | _ => grind

theorem Step.keeps_left (h : Step d x y) (hd : d.noTie) (ha : Arrived x) :
    ∀ r v, .leave r v ∈ y.jobs → Done y r v := by
  have h2 := ha.left
  have h3 := fun r v => h.done hd (r := r) (v := v)
  cases h with
  | @install r' v jobs hj =>
    intro r w hw
    rcases Multiset.mem_cons.mp hw with hw | hw
    · cases hw
      have := installed_done v (x.chain r' (key v))
      simpa only [Done, set2_apply, and_self, if_true]
    · grind
  | _ => grind

theorem Arrived.step (ha : Arrived x) (hx : Basic x) (hd : d.noTie) (h : Step d x y) : Arrived y :=
  ⟨h.keeps_arrive hx hd ha, h.keeps_left hd ha⟩

theorem Reachable.arrived (h : Reachable d x) (hd : d.noTie) : Arrived x := by
  induction h with
  | refl => exact ⟨by simp [init], by simp [init]⟩
  | tail hr hs ih => exact ih.step (Reachable.basic hr) hd hs

/-! ## 6. The updates of one source are in order -/

/-- The updates of one source are in order: those in a queue before those that have not been
looked at, and these before the one that is being made. -/
structure InLine (x : State V R K T) : Prop where
  once : (x.jobs.filterMap Job.sent).Nodup
  ordered : ∀ r j, (x.queue r j).Pairwise fun v w => time v < time w
  queueUpdate : ∀ r v w, v ∈ x.queue r (source w) → .update r w ∈ x.jobs → time v < time w
  queueMaking : ∀ r v w i, v ∈ x.queue r (source w) → x.making (source w) i = some w →
    time v < time w
  updateMaking : ∀ r v i w, .update r v ∈ x.jobs → x.making (source v) i = some w →
    time v < time w

omit [LinearOrder R] [DecidableEq K] [Zero T] in
/-- An update that is looked at is not looked at again. -/
theorem InLine.once_rest (hl : InLine x) {r : R} {v : V} {rest : Multiset (Job V R T)}
    (hj : x.jobs = .update r v ::ₘ rest) : .update r v ∉ rest := by
  have h := hl.once
  rw [hj, Multiset.filterMap_cons_some Job.sent _ _ rfl, Multiset.nodup_cons] at h
  exact fun hm => h.1 ((Multiset.mem_filterMap Job.sent _).mpr ⟨_, hm, rfl⟩)

theorem Step.keeps_once (h : Step d x y) (hx : Basic x) (hi : InLine x) :
    (y.jobs.filterMap Job.sent).Nodup := by
  have h1 := hi.once
  cases h with
  | accept => exact h1
  | @send r₀ i v l hv hl hd =>
    rw [Multiset.filterMap_add, sent_updates, Multiset.nodup_add]
    refine ⟨h1, ?_, ?_⟩
    · rw [Multiset.coe_nodup]
      exact hd.map fun a b hab => (Prod.mk.inj hab).1
    · rw [Multiset.disjoint_left]
      rintro ⟨r, w⟩ hs hm
      obtain ⟨a, ha', hs⟩ := (Multiset.mem_filterMap Job.sent _).mp hs
      obtain ⟨r', -, hr⟩ := List.mem_map.mp (Multiset.mem_coe.mp hm)
      cases hr
      cases a <;> cases hs
      have h2 := (hx.making r₀ i v hv).1
      exact lt_irrefl _ (hi.updateMaking _ _ i v ha' (h2 ▸ hv))
  | promise => rwa [Multiset.filterMap_add, sent_beats, Multiset.add_zero]
  | tick => rwa [Multiset.filterMap_add, sent_beats, Multiset.add_zero]
  | beat b hj =>
    rw [hj, Multiset.filterMap_cons_none _ _ rfl] at h1
    cases b
    · exact h1
    · rwa [if_pos rfl, Multiset.filterMap_cons_none _ _ rfl]
  | raise hj => rwa [hj, Multiset.filterMap_cons_none _ _ rfl] at h1
  | queue hj =>
    rw [hj, Multiset.filterMap_cons_some Job.sent _ _ rfl, Multiset.nodup_cons] at h1
    exact h1.2
  | work hj =>
    rw [hj, Multiset.filterMap_cons_some Job.sent _ _ rfl, Multiset.nodup_cons] at h1
    rw [Multiset.filterMap_add, sent_next, Multiset.zero_add]
    exact h1.2
  | install hj =>
    rw [hj, Multiset.filterMap_cons_none _ _ rfl] at h1
    rwa [Multiset.filterMap_cons_none _ _ rfl]
  | leave hj =>
    rw [hj, Multiset.filterMap_cons_none _ _ rfl] at h1
    rwa [Multiset.filterMap_add, sent_next, Multiset.zero_add]

theorem Step.keeps_updateMaking (h : Step d x y) (hx : Basic x) (hl : InLine x) :
    ∀ r v i w, .update r v ∈ y.jobs → y.making (source v) i = some w → time v < time w := by
  have h1 := hl.updateMaking
  have h2 := hx.own
  have h3 := hx.update
  have h4 := hx.slot
  have h5 := hx.making
  cases h <;> grind

theorem Step.keeps_queueMaking (h : Step d x y) (hx : Basic x) (hl : InLine x) :
    ∀ r v w i, v ∈ y.queue r (source w) → y.making (source w) i = some w → time v < time w := by
  have h1 := hl.queueMaking
  have h2 := hx.own
  have h3 := hx.queue
  have h4 := hx.update
  have h5 := hl.updateMaking
  cases h <;> grind [Works.subset]

/-- When an update is looked at, all updates sent before it have been. -/
theorem Step.keeps_queueUpdate (h : Step d x y) (hx : Basic x) (hl : InLine x) (hd : d.inOrder) :
    ∀ r v w, v ∈ y.queue r (source w) → .update r w ∈ y.jobs → time v < time w := by
  have h1 := hl.queueUpdate
  have h3 := hx.update
  have h4 := hl.queueMaking
  have h5 := hx.making
  cases h with
  | @queue r₀ v₀ jobs hj hr ho hq =>
    have h6 := hl.once_rest hj
    intro r v w hv hw
    have h7 := ho hd w
    have h8 := hx.inj (key v₀) (key w) v₀ w
    grind
  | @work r₀ v₀ q l jobs hj hr ho hq hw =>
    have h6 := hl.once_rest hj
    intro r v w hv hw
    have h7 := ho hd w
    have h8 := hx.inj (key v₀) (key w) v₀ w
    grind [Works.subset]
  | _ => grind [Works.subset]

theorem Step.keeps_ordered (h : Step d x y) (hl : InLine x) :
    ∀ r j, (y.queue r j).Pairwise fun v w => time v < time w := by
  have h1 := hl.ordered
  have h2 := hl.queueUpdate
  cases h with
  | @queue r₀ v₀ jobs hj hr ho hq =>
    intro r j
    simp only [set2_apply]
    split
    · rw [List.pairwise_append]
      grind
    · exact h1 r j
  | @work r₀ v₀ q l jobs hj hr ho hq hw =>
    intro r j
    simp only [set2_apply]
    split
    · exact (List.pairwise_singleton _ v₀).sublist hw.suffix.sublist
    · exact h1 r j
  | @leave r₀ v₀ q q' l jobs hj hq hw =>
    intro r j
    simp only [set2_apply]
    split
    · have h3 := h1 r₀ (source v₀)
      rw [hq] at h3
      exact h3.of_cons.sublist hw.suffix.sublist
    · exact h1 r j
  | _ => exact h1

omit [LinearOrder R] [DecidableEq K] in
theorem InLine.init : InLine (init : State V R K T) where
  once := by simp [Replication.init]
  ordered := by simp [Replication.init]
  queueUpdate := by simp [Replication.init]
  queueMaking := by simp [Replication.init]
  updateMaking := by simp [Replication.init]

theorem Reachable.inLine (h : Reachable d x) (ho : d.inOrder) : InLine x := by
  induction h with
  | refl => exact InLine.init
  | tail hr hs ih =>
    have hx := Reachable.basic hr
    exact ⟨hs.keeps_once hx ih, hs.keeps_ordered ih, hs.keeps_queueUpdate hx ih ho,
      hs.keeps_queueMaking hx ih, hs.keeps_updateMaking hx ih⟩

/-- What a replica has installed of a source is older than all that has yet to come. -/
structure Behind (x : State V R K T) : Prop where
  making : ∀ r k v i w, r ≠ source v → v ∈ x.chain r k → x.making (source v) i = some w →
    time v < time w
  update : ∀ r k v w, r ≠ source v → v ∈ x.chain r k → .update r w ∈ x.jobs →
    source w = source v → time v < time w
  queue : ∀ r k v w, r ≠ source v → v ∈ x.chain r k → w ∈ x.queue r (source v) →
    time v ≤ time w

theorem Step.keeps_behind_making (h : Step d x y) (hx : Basic x) (hl : InLine x)
    (hb : Behind x) :
    ∀ r k v i w, r ≠ source v → v ∈ y.chain r k → y.making (source v) i = some w →
      time v < time w := by
  have h1 := hb.making
  have h2 := hx.chain
  have h3 := hx.own
  have h4 := hx.install
  have h5 := hl.queueMaking
  have h6 := hx.making
  cases h <;> grind [mem_installed]

theorem Step.keeps_behind_update (h : Step d x y) (hx : Basic x) (hl : InLine x)
    (hb : Behind x) :
    ∀ r k v w, r ≠ source v → v ∈ y.chain r k → .update r w ∈ y.jobs → source w = source v →
      time v < time w := by
  have h1 := hb.making
  have h2 := hb.update
  have h3 := hx.making
  have h4 := hx.install
  have h5 := hl.queueUpdate
  have h6 := hx.update
  cases h <;> grind [mem_installed]

/-- An installed update is the first of its queue. -/
theorem Step.keeps_behind_queue (h : Step d x y) (hx : Basic x) (hl : InLine x)
    (hb : Behind x) :
    ∀ r k v w, r ≠ source v → v ∈ y.chain r k → w ∈ y.queue r (source v) →
      time v ≤ time w := by
  have h1 := hb.queue
  have h2 := hb.update
  cases h with
  | @install r₀ v₀ jobs hj ht =>
    have h4 := hx.front r₀ v₀ (.inl (by rw [hj]; exact Multiset.mem_cons_self _ _))
    obtain ⟨q, hq⟩ := List.head?_eq_some_iff.mp h4
    have h5 := hl.ordered r₀ (source v₀)
    rw [hq, List.pairwise_cons] at h5
    have h6 := h5.1
    grind [mem_installed]
  | @accept v₀ =>
    have h4 := hx.queue
    grind
  | @leave r₀ v₀ q q' l jobs hj hq hw => grind [Works.subset]
  | @work r₀ v₀ q l jobs hj hr ho hq hw => grind [Works.subset]
  | @queue r₀ v₀ jobs hj hr ho hq => grind
  | _ => exact h1

theorem Reachable.behind (h : Reachable d x) (ho : d.inOrder) : Behind x := by
  induction h with
  | refl => exact ⟨by simp [init], by simp [init], by simp [init]⟩
  | tail hr hs ih =>
    have hx := Reachable.basic hr
    have hl := Reachable.inLine hr ho
    exact ⟨hs.keeps_behind_making hx hl ih, hs.keeps_behind_update hx hl ih,
      hs.keeps_behind_queue hx hl ih⟩

/-! ## 7. The vector means what it says -/

/-- Whatever has not been installed yet lies ahead of the vector and of all heartbeats that may
still raise it. -/
structure Ahead (x : State V R K T) : Prop where
  promised : ∀ j, 0 ≤ x.promised j
  vectorFloor : ∀ r j, x.vector r j ≤ x.floor j ∨ x.vector r j ≤ x.promised j
  beatPromised : ∀ r j z, .beat r j z ∈ x.jobs → z ≤ x.promised j
  raisePromised : ∀ r j z, .raise r j z ∈ x.jobs → z ≤ x.promised j
  beatMaking : ∀ r j z i v, .beat r j z ∈ x.jobs → x.making j i = some v → z < time v
  raiseMaking : ∀ r j z i v, .raise r j z ∈ x.jobs → x.making j i = some v → z < time v
  raiseUpdate : ∀ r z v, .raise r (source v) z ∈ x.jobs → .update r v ∈ x.jobs → z < time v
  making : ∀ r i v, r ≠ source v → x.making (source v) i = some v →
    x.vector r (source v) < time v
  update : ∀ r v, .update r v ∈ x.jobs → x.vector r (source v) < time v
  queue : ∀ r v, v ∈ x.queue r (source v) → .leave r v ∉ x.jobs → x.vector r (source v) < time v

theorem Step.keeps_promised (h : Step d x y) (ha : Ahead x) : ∀ j, 0 ≤ y.promised j := by
  have h1 := ha.promised
  cases h <;> grind [Function.update_apply]

theorem Step.keeps_vectorFloor (h : Step d x y) (hx : Basic x) (ha : Ahead x) :
    ∀ r j, y.vector r j ≤ y.floor j ∨ y.vector r j ≤ y.promised j := by
  have h1 := ha.vectorFloor
  have h2 := ha.raisePromised
  have h3 := hx.own
  have h4 := hx.install
  have h5 := hx.queue
  cases h <;> grind [Function.update_apply]

theorem Step.keeps_beatPromised (h : Step d x y) (ha : Ahead x) :
    ∀ r j z, .beat r j z ∈ y.jobs → z ≤ y.promised j := by
  have h1 := ha.beatPromised
  have h2 := ha.promised
  cases h <;> grind [Function.update_apply]

theorem Step.keeps_raisePromised (h : Step d x y) (ha : Ahead x) :
    ∀ r j z, .raise r j z ∈ y.jobs → z ≤ y.promised j := by
  have h1 := ha.raisePromised
  have h2 := ha.beatPromised
  cases h <;> grind [Function.update_apply]

theorem Step.keeps_beatMaking (h : Step d x y) (hx : Basic x) (ha : Ahead x) (hd : d.afterBeats) :
    ∀ r j z i v, .beat r j z ∈ y.jobs → y.making j i = some v → z < time v := by
  have h1 := ha.beatMaking
  have h2 := ha.beatPromised
  have h3 := hx.making
  have h4 := hx.own
  cases h <;> grind

theorem Step.keeps_raiseMaking (h : Step d x y) (ha : Ahead x) (hd : d.afterBeats) :
    ∀ r j z i v, .raise r j z ∈ y.jobs → y.making j i = some v → z < time v := by
  have h1 := ha.beatMaking
  have h2 := ha.raiseMaking
  have h3 := ha.raisePromised
  cases h <;> grind

/-- When a heartbeat is looked at, all updates sent before it have been. -/
theorem Step.keeps_raiseUpdate (h : Step d x y) (hx : Basic x) (ha : Ahead x)
    (hd : d.beatsInOrder) :
    ∀ r z v, .raise r (source v) z ∈ y.jobs → .update r v ∈ y.jobs → z < time v := by
  have h1 := ha.raiseUpdate
  have h2 := ha.raiseMaking
  have h4 := hx.making
  cases h <;> grind

theorem Step.keeps_making_ahead (h : Step d x y) (hx : Basic x) (hl : InLine x) (ha : Ahead x)
    (hd : d.afterBeats) :
    ∀ r i v, r ≠ source v → y.making (source v) i = some v →
      y.vector r (source v) < time v := by
  have h1 := ha.making
  have h2 := ha.vectorFloor
  have h3 := ha.raiseMaking
  have h4 := hx.install
  have h5 := hl.queueMaking
  cases h <;> grind

theorem Step.keeps_update_ahead (h : Step d x y) (hx : Basic x) (hl : InLine x)
    (ha : Ahead x) :
    ∀ r v, .update r v ∈ y.jobs → y.vector r (source v) < time v := by
  have h1 := ha.update
  have h2 := ha.making
  have h3 := ha.raiseUpdate
  have h4 := hx.install
  have h5 := hl.queueUpdate
  have h6 := hx.making
  cases h <;> grind

/-- A heartbeat does not pass the queue, and an installed update is the first of its queue. -/
theorem Step.keeps_queue_ahead (h : Step d x y) (hx : Basic x) (hl : InLine x) (ha : Ahead x)
    (hd : d.noPassing) :
    ∀ r v, v ∈ y.queue r (source v) → .leave r v ∉ y.jobs →
      y.vector r (source v) < time v := by
  have h1 := ha.queue
  have h2 := ha.update
  have h3 := hl.ordered
  cases h with
  | @work r₀ v₀ q l jobs hj hr ho hq hw => grind [Works.subset]
  | @install r₀ v₀ jobs hj ht =>
    have h4 := hx.front r₀ v₀ (.inl (by rw [hj]; exact Multiset.mem_cons_self _ _))
    obtain ⟨q, hq⟩ := List.head?_eq_some_iff.mp h4
    have h5 := h3 r₀ (source v₀)
    rw [hq, List.pairwise_cons] at h5
    intro r v hv hn
    have h6 := h5.1 v
    grind
  | @leave r₀ v₀ q q' l jobs hj hq hw =>
    have h4 := hx.front
    have h5 := h3 r₀ (source v₀)
    rw [hq, List.pairwise_cons] at h5
    have h6 := fun v => hw.subset (v := v)
    intro r v
    have h7 := h5.1 v
    grind
  | _ => grind

omit [LinearOrder R] [DecidableEq K] in
theorem Ahead.init : Ahead (init : State V R K T) where
  promised := by simp [Replication.init]
  vectorFloor := by simp [Replication.init]
  beatPromised := by simp [Replication.init]
  raisePromised := by simp [Replication.init]
  beatMaking := by simp [Replication.init]
  raiseMaking := by simp [Replication.init]
  raiseUpdate := by simp [Replication.init]
  making := by simp [Replication.init]
  update := by simp [Replication.init]
  queue := by simp [Replication.init]

theorem Ahead.step (ha : Ahead x) (hx : Basic x) (hl : InLine x) (ho : d.beatsInOrder)
    (hb : d.afterBeats) (hp : d.noPassing) (h : Step d x y) : Ahead y :=
  ⟨h.keeps_promised ha, h.keeps_vectorFloor hx ha, h.keeps_beatPromised ha,
    h.keeps_raisePromised ha, h.keeps_beatMaking hx ha hb, h.keeps_raiseMaking ha hb,
    h.keeps_raiseUpdate hx ha ho, h.keeps_making_ahead hx hl ha hb, h.keeps_update_ahead hx hl ha,
    h.keeps_queue_ahead hx hl ha hp⟩

theorem Reachable.ahead (h : Reachable d x) (hi : d.inOrder) (ho : d.beatsInOrder)
    (hb : d.afterBeats) (hp : d.noPassing) : Ahead x := by
  induction h with
  | refl => exact Ahead.init
  | tail hr hs ih => exact ih.step (Reachable.basic hr) (Reachable.inLine hr hi) ho hb hp hs

/-- An update that is installed raises the entry of its source. -/
theorem Reachable.install_ahead (h : Reachable d x) (hi : d.inOrder) (ho : d.beatsInOrder)
    (hb : d.afterBeats) (hp : d.noPassing) {r : R} {v : V} (hv : .install r v ∈ x.jobs) :
    x.vector r (source v) < time v := by
  have hx := h.basic
  obtain ⟨jobs, hj⟩ := Multiset.exists_cons_of_mem hv
  refine (h.ahead hi ho hb hp).queue r v (hx.install r v hv) ?_
  -- nobody else is at work on the queue
  rw [hj]
  intro hm
  rcases Multiset.mem_cons.mp hm with hm | hm
  · cases hm
  · exact hx.work_rest hj (r := r) (j := source v) ⟨rfl, rfl⟩ _ hm ⟨rfl, rfl⟩

/-- **Coverage.**  If updates and heartbeats are looked at in order, versions are later than the
heartbeats sent before, no heartbeat passes a queue and no tie is covered, then a replica is done
with every version up to its vector entry. -/
theorem Reachable.covered (h : Reachable d x) (hi : d.inOrder) (ho : d.beatsInOrder)
    (hb : d.afterBeats) (hp : d.noPassing) (ht : d.noTie) {r : R} {v : V}
    (hv : v ∈ x.chain (source v) (key v)) (hr : r ≠ source v)
    (hle : time v ≤ x.vector r (source v)) : Done x r v := by
  have ha := h.ahead hi ho hb hp
  rcases (h.arrived ht).arrive r v hv hr with ⟨i, hm⟩ | hu | hw | hd
  · exact absurd hle (not_le.mpr (ha.making r i v hr hm))
  · exact absurd hle (not_le.mpr (ha.update r v hu))
  · by_cases hl : .leave r v ∈ x.jobs
    · exact (h.arrived ht).left r v hl
    · exact absurd hle (not_le.mpr (ha.queue r v hw hl))
  · exact hd

/-! ## 8. Replicas agree -/

/-- Somebody is at work on every queue that is not empty. -/
def Busy (x : State V R K T) : Prop :=
  ∀ r j, x.queue r j ≠ [] → ∃ v, source v = j ∧ (.install r v ∈ x.jobs ∨ .leave r v ∈ x.jobs)

theorem Busy.step (hb : Busy x) (hx : Basic x) (hd : d.noStall) (h : Step d x y) : Busy y := by
  unfold Busy at *
  cases h with
  | @work r₀ v₀ q l jobs hj hr ho hq hw =>
    intro r j hn
    simp only [set2_apply] at hn
    split at hn <;> rename_i hc
    · obtain ⟨rfl, rfl⟩ := hc
      cases l with
      | none => exact absurd (hw.empty hd rfl) hn
      | some w => exact ⟨w, by rw [List.mem_singleton.mp (hw.mem rfl)], .inl (by simp)⟩
    · obtain ⟨v, hv, hm⟩ := hb r j hn
      exact ⟨v, hv, by grind⟩
  | @leave r₀ v₀ q q' l jobs hj hq hw =>
    intro r j hn
    simp only [set2_apply] at hn
    split at hn <;> rename_i hc
    · obtain ⟨rfl, rfl⟩ := hc
      cases l with
      | none => exact absurd (hw.empty hd rfl) hn
      | some w =>
        have := hx.queue r (source v₀) w (by rw [hq]; exact List.mem_cons_of_mem _ (hw.mem rfl))
        exact ⟨w, this.1, .inl (by simp)⟩
    · obtain ⟨v, hv, hm⟩ := hb r j hn
      exact ⟨v, hv, by grind⟩
  | @install r₀ v₀ jobs hj ht =>
    intro r j hn
    obtain ⟨v, hv, hm⟩ := hb r j hn
    exact ⟨v, hv, by grind⟩
  | @queue r₀ v₀ jobs hj hr ho hq =>
    intro r j hn
    simp only [set2_apply] at hn
    obtain ⟨v, hv, hm⟩ := hb r j (by grind)
    exact ⟨v, hv, by grind⟩
  | _ =>
    intro r j hn
    obtain ⟨v, hv, hm⟩ := hb r j hn
    exact ⟨v, hv, by grind⟩

/-- The top of a chain is its newest version. -/
def Sorted (x : State V R K T) : Prop :=
  ∀ r k h v, (x.chain r k).head? = some h → v ∈ x.chain r k → v = h ∨ Older v h

omit [DecidableEq K] [Zero T] in
/-- Versions of one source are told apart by their time; so a version that goes on top of another
without a tie is newer than that. -/
theorem NoTie.older {l : List V} {v h : V} (ht : NoTie l v) (hh : l.head? = some h)
    (hle : time h ≤ time v) (hi : source h = source v → time h = time v → h = v) :
    h = v ∨ Older h v := by
  rcases hle.lt_or_eq with hlt | heq
  · exact .inr (.inl hlt)
  · rcases (not_lt.mp (ht h hh heq)).lt_or_eq with hlt | hs
    · exact .inr (.inr ⟨heq, hlt⟩)
    · exact .inl (hi hs heq)

omit [DecidableEq K] [Zero T] in
theorem Sorted.cons {l : List V} {v : V} (hl : ∀ h w, l.head? = some h → w ∈ l → w = h ∨ Older w h)
    (ht : ∀ h, l.head? = some h → h = v ∨ Older h v) (w : V) (hw : w ∈ v :: l) :
    w = v ∨ Older w v := by
  rcases List.mem_cons.mp hw with rfl | hw
  · exact .inl rfl
  · cases l with
    | nil => cases hw
    | cons h l =>
      rcases hl h w rfl hw with rfl | h1
      · exact ht w rfl
      · rcases ht h rfl with rfl | h2
        · exact .inr h1
        · exact .inr (h1.trans h2)

theorem Sorted.step (hs : Sorted x) (hx : Basic x) (hd : d.noTie) (h : Step d x y) : Sorted y := by
  have hy := hx.step h
  cases h with
  | @accept v i hf hp hm hh ht =>
    intro r k g w hg hw
    simp only [set2_apply] at hg hw
    split at hg <;> rename_i hc
    · obtain ⟨rfl, rfl⟩ := hc
      rw [if_pos ⟨rfl, rfl⟩] at hw
      cases hg
      refine Sorted.cons (fun h w => hs _ _ h w) (fun h h1 => ?_) w hw
      have h2 := (hx.own _ _ h (List.mem_of_mem_head? h1))
      refine (ht hd).older h1 (hh h h1) fun h3 h4 => ?_
      exact absurd (h2 h3).2 (not_le.mpr (h4 ▸ hf))
    · rw [if_neg hc] at hw
      exact hs r k g w hg hw
  | @install r' v jobs hj ht =>
    intro r k g w hg hw
    simp only [set2_apply] at hg hw
    split at hg <;> rename_i hc
    · obtain ⟨rfl, rfl⟩ := hc
      rw [if_pos ⟨rfl, rfl⟩] at hw
      have hv := hx.queue _ _ v (hx.install r v (by rw [hj]; exact Multiset.mem_cons_self _ _))
      have hold := fun h w => hs r (Versioned.key v) h w
      have hin := fun h => hx.chain r (Versioned.key v) h
      generalize x.chain r (Versioned.key v) = l at *
      cases l with
      | nil =>
        cases hg
        exact .inl (List.mem_singleton.mp hw)
      | cons h l =>
        rw [installed_cons] at hg hw
        split at hg <;> rename_i hlt
        · rw [if_pos hlt] at hw
          exact hold g w hg hw
        · rw [if_neg hlt] at hw
          cases hg
          refine Sorted.cons hold (fun h' h1 => ?_) w hw
          cases h1
          refine (ht hd).older rfl (not_lt.mp hlt) fun h3 h4 => ?_
          exact hx.inj _ _ _ _ (hin h List.mem_cons_self) hv.2.2 h3 h4
    · rw [if_neg hc] at hw
      exact hs r k g w hg hw
  | _ => exact hs

theorem Reachable.busy (h : Reachable d x) (hd : d.noStall) : Busy x := by
  induction h with
  | refl => exact fun r j hn => absurd rfl hn
  | tail hr hs ih => exact ih.step (Reachable.basic hr) hd hs

theorem Reachable.sorted (h : Reachable d x) (hd : d.noTie) : Sorted x := by
  induction h with
  | refl => exact fun r k h v hh => absurd hh (by simp [init])
  | tail hr hs ih => exact ih.step (Reachable.basic hr) hd hs

/-- With nothing left to do, everybody is done with everything. -/
theorem Reachable.done (h : Reachable d x) (ht : d.noTie) (hs : d.noStall)
    (hm : ∀ r i, x.making r i = none)
    (hj : ∀ r v, .update r v ∉ x.jobs ∧ .install r v ∉ x.jobs ∧ .leave r v ∉ x.jobs) (r : R) {v : V}
    (hv : v ∈ x.chain (source v) (key v)) : Done x r v := by
  by_cases hr : r = source v
  · exact .inl (hr ▸ hv)
  rcases (h.arrived ht).arrive r v hv hr with ⟨i, hi⟩ | hu | hq | hd
  · rw [hm] at hi; cases hi
  · exact absurd hu (hj r v).1
  · obtain ⟨w, -, hw⟩ := h.busy hs r (source v) (List.ne_nil_of_mem hq)
    exact absurd hw (not_or.mpr (hj r w).2)
  · exact hd

omit [DecidableEq K] [Zero T] in
theorem Done.head {r : R} {v : V} (h : Done x r v) : ∃ w, (x.chain r (key v)).head? = some w := by
  rcases h with h | ⟨w, hw, -⟩
  · exact ⟨_, List.head?_eq_some_head (List.ne_nil_of_mem h)⟩
  · exact ⟨w, hw⟩

/-- **Agreement.**  If no tie is covered and no update stalls, then with nothing left to do all
replicas have the same version on top of every chain: the newest that any of them accepted. -/
theorem Reachable.agree (h : Reachable d x) (hs : d.noStall) (ht : d.noTie)
    (hm : ∀ r i, x.making r i = none)
    (hj : ∀ r v, .update r v ∉ x.jobs ∧ .install r v ∉ x.jobs ∧ .leave r v ∉ x.jobs)
    {v : V} (hv : v ∈ x.chain (source v) (key v)) :
    ∃ w, w ∈ x.chain (source w) (key w) ∧ key w = key v ∧
      (∀ r, (x.chain r (key v)).head? = some w) ∧
      ∀ u, u ∈ x.chain (source u) (key u) → key u = key v → u = w ∨ Older u w := by
  have hx := h.basic
  have hdone := h.done ht hs hm hj
  -- the top of any replica's chain is the newest of all versions of the key
  have top : ∀ r, ∃ w, (x.chain r (key v)).head? = some w ∧
      ∀ u, u ∈ x.chain (source u) (key u) → key u = key v → u = w ∨ Older u w := by
    intro r
    obtain ⟨w, hw⟩ := (hdone r hv).head
    refine ⟨w, hw, fun u hu hk => ?_⟩
    rcases hdone r hu with hm | ⟨g, hg, ho⟩
    · exact h.sorted ht r _ w u hw (hk ▸ hm)
    · rw [hk, hw] at hg
      cases hg
      exact .inr ho
  obtain ⟨w, hw, hmax⟩ := top (source v)
  have hin := hx.chain _ _ w (List.mem_of_mem_head? hw)
  have hkey := hx.key _ _ w (List.mem_of_mem_head? hw)
  refine ⟨w, hin, hkey, fun r => ?_, hmax⟩
  obtain ⟨w', hw', hmax'⟩ := top r
  have hin' := hx.chain _ _ w' (List.mem_of_mem_head? hw')
  have hkey' := hx.key _ _ w' (List.mem_of_mem_head? hw')
  rw [hw']
  rcases hmax w' hin' hkey' with rfl | h1
  · rfl
  · rcases hmax' w hin hkey with rfl | h2
    · rfl
    · exact absurd (h1.trans h2) (Older.irrefl _)

end Machine

end CCSim.Replication
