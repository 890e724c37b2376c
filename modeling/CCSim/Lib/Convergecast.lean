/-
# Minima over a tree, round by round

The nodes of a tree compute a minimum again and again.  In every round each leaf sends a value to
its parent; an inner node that has heard from all its children adds a value of its own and sends
the minimum to its parent; the root, when it has heard from all its children, closes the round.
Later it reads the minimum and tells its children, who tell theirs, and a leaf that is told starts
the next round.  No node knows the number of a round, and messages may overtake each other.

What keeps the rounds apart is one token on every path.  `Convergecast.load` counts what lies on the
path from the root to a node: values on their way up, values that have been noted, results on their
way down.  It is at most one (`Flow.load_le`), and for a leaf it is one unless the leaf itself is
about to start (`Flow.leaf_load`).  So a node adds its value only when nothing is on the path above
it, which is why nothing that was computed with its previous value is still in use (`Values`).

Some nodes may be stuck: not a leaf, and waiting for more children than there are.  Then no round
is ever closed, and everything said here holds.
-/
import CCSim.Lib.Tree
import Mathlib.Data.Fintype.Card
import Mathlib.Data.Multiset.MapFold
import Mathlib.Algebra.BigOperators.Group.Multiset.Basic
import Mathlib.Algebra.Order.BigOperators.Group.Multiset
import Mathlib.Order.Bounds.Basic
import Mathlib.Order.Lattice

namespace CCSim

/-! ## 1. The system -/

/-- A tree whose nodes know whether they start a round, for how many children they wait, and
whom they tell the result. -/
structure Convergecast (N : Type) extends Tree N where
  leaf : N → Prop
  needed : N → ℕ
  told : N → List N

/-- What there is to be done: a leaf starts, a value goes up, the root has closed a round, a node
passes a result down. -/
inductive RoundToken (N V : Type)
  | start (p : N)
  | up (p : N) (v : V)
  | closed
  | down (p : N)

/-- The state: from which nodes their parents have heard, the minimum so far, what every node has
contributed, the latest first, and how many results the root has read. -/
@[ext]
structure RoundState (N V : Type) where
  heard : N → Bool
  minimum : N → V
  contributions : N → List V
  read : ℕ
  tokens : Multiset (RoundToken N V)

variable {N V : Type} [DecidableEq N] [Fintype N]

namespace Convergecast

variable (G : Convergecast N)

def children (q : N) : Finset N := Finset.univ.filter fun p => G.ChildOf p q

/-- The children that a node has heard from in this round. -/
def heardFrom (A : RoundState N V) (q : N) : Finset N :=
  (G.children q).filter fun p => A.heard p

/-- A node whose local view of the tree is right. -/
structure Good (q : N) : Prop where
  leaf : G.leaf q → G.children q = ∅
  needed : ¬G.leaf q → G.needed q = (G.children q).card
  mem_told : ∀ p, p ∈ G.told q ↔ G.ChildOf p q
  nodup_told : (G.told q).Nodup

/-- A node that will never complete a round. -/
structure Stuck (q : N) : Prop where
  not_leaf : ¬G.leaf q
  needed : (G.children q).card ≠ 0 → (G.children q).card < G.needed q

/-! ## 2. Steps -/

section Step

variable [LinearOrder V] (A : RoundState N V)

/-- A leaf starts a round with the value `v`. -/
def start (p : N) (v : V) (rest : Multiset (RoundToken N V)) : RoundState N V :=
  { A with
    contributions := Function.update A.contributions p (v :: A.contributions p)
    tokens := .up p v ::ₘ rest }

/-- The minimum at the parent of `p` when the value `v` of `p` is noted. -/
def noted (p : N) (v : V) : V :=
  if (G.heardFrom A (G.parent p)).card = 0 ∨ v < A.minimum (G.parent p) then v
  else A.minimum (G.parent p)

/-- The parent of `p` notes the value `v` and waits for more. -/
def note (p : N) (v : V) (rest : Multiset (RoundToken N V)) : RoundState N V :=
  { A with
    heard := Function.update A.heard p true
    minimum := Function.update A.minimum (G.parent p) (G.noted A p v)
    tokens := rest }

/-- The parent `q` of `p` has heard from all its children and adds the value `w`. -/
def complete (p q : N) (v w : V) (rest : Multiset (RoundToken N V)) : RoundState N V :=
  { A with
    heard := fun u => if G.ChildOf u q then false else A.heard u
    minimum := Function.update A.minimum q (min w (G.noted A p v))
    contributions := Function.update A.contributions q (w :: A.contributions q)
    tokens := (if q = G.root then .closed else .up q (min w (G.noted A p v))) ::ₘ rest }

/-- The root reads the minimum. -/
def readMinimum (rest : Multiset (RoundToken N V)) : RoundState N V :=
  { A with read := A.read + 1, tokens := .down G.root ::ₘ rest }

/-- A node passes the result on. -/
def tell (p : N) (rest : Multiset (RoundToken N V)) : RoundState N V :=
  { A with tokens := ((G.told p).map RoundToken.down : List (RoundToken N V)) + rest }

def restart (p : N) (rest : Multiset (RoundToken N V)) : RoundState N V :=
  { A with tokens := .start p ::ₘ rest }

/-- One step. -/
inductive Step : RoundState N V → RoundState N V → Prop
  | start {A : RoundState N V} {p : N} {rest : Multiset (RoundToken N V)}
      (htokens : A.tokens = .start p ::ₘ rest) (hleaf : G.leaf p) (hroot : p ≠ G.root) (v : V) :
      Step A (start A p v rest)
  | note {A : RoundState N V} {p : N} {v : V} {rest : Multiset (RoundToken N V)}
      (htokens : A.tokens = .up p v ::ₘ rest) (hheard : A.heard p = false) :
      Step A (G.note A p v rest)
  | complete {A : RoundState N V} {p q : N} {v : V} {rest : Multiset (RoundToken N V)}
      (htokens : A.tokens = .up p v ::ₘ rest) (hheard : A.heard p = false) (hq : G.parent p = q)
      (hlast : (G.heardFrom A q).card + 1 = G.needed q) (w : V) :
      Step A (G.complete A p q v w rest)
  | readMinimum {A : RoundState N V} {rest : Multiset (RoundToken N V)}
      (htokens : A.tokens = .closed ::ₘ rest) : Step A (G.readMinimum A rest)
  | tell {A : RoundState N V} {p : N} {rest : Multiset (RoundToken N V)}
      (htokens : A.tokens = .down p ::ₘ rest) (hleaf : ¬G.leaf p) : Step A (G.tell A p rest)
  | restart {A : RoundState N V} {p : N} {rest : Multiset (RoundToken N V)}
      (htokens : A.tokens = .down p ::ₘ rest) (hleaf : G.leaf p) : Step A (restart A p rest)

end Step

variable {G} {A A' : RoundState N V}

theorem mem_children {p q : N} : p ∈ G.children q ↔ G.ChildOf p q := by
  simp [children]

theorem mem_heardFrom {p q : N} : p ∈ G.heardFrom A q ↔ G.ChildOf p q ∧ A.heard p = true := by
  simp [heardFrom, mem_children]

/-- A node that completes a round has heard from all its other children. -/
theorem heard_of_complete {p q : N} (hq : G.Good q ∨ G.Stuck q) (hp : G.ChildOf p q)
    (hheard : A.heard p = false) (hlast : (G.heardFrom A q).card + 1 = G.needed q) :
    ¬G.leaf q ∧ ¬G.Stuck q ∧ ∀ u, G.ChildOf u q → u ≠ p → A.heard u = true := by
  have hsub : G.heardFrom A q ⊆ (G.children q).erase p := by
    intro u hu
    rw [mem_heardFrom] at hu
    refine Finset.mem_erase.mpr ⟨?_, mem_children.mpr hu.1⟩
    rintro rfl
    rw [hheard] at hu
    exact Bool.false_ne_true hu.2
  have hcard := Finset.card_le_card hsub
  have hmem : p ∈ G.children q := mem_children.mpr hp
  rw [Finset.card_erase_of_mem hmem] at hcard
  have hpos := Finset.card_pos.mpr ⟨p, hmem⟩
  have hstuck : ¬G.Stuck q := by
    intro h
    have := h.needed hpos.ne'
    omega
  have hgood := hq.resolve_right hstuck
  have hleaf : ¬G.leaf q := by
    intro h
    rw [hgood.leaf h] at hmem
    exact Finset.notMem_empty _ hmem
  refine ⟨hleaf, hstuck, fun u hu hne => ?_⟩
  have heq := Finset.eq_of_subset_of_card_le hsub (by
    rw [Finset.card_erase_of_mem hmem]
    have := hgood.needed hleaf
    omega)
  have : u ∈ G.heardFrom A q := by
    rw [heq]
    exact Finset.mem_erase.mpr ⟨hne, mem_children.mpr hu⟩
  exact (mem_heardFrom.mp this).2

end Convergecast

/-! ## 3. Where the tokens are -/

namespace RoundToken

/-- A value is at the node it comes from, a result at the node that passes it on. -/
def upAt : RoundToken N V → N → ℤ
  | .up p _, u => if u = p then 1 else 0
  | _, _ => 0

def downAt (root : N) : RoundToken N V → N → ℤ
  | .closed, u => if u = root then 1 else 0
  | .down p, u => if u = p then 1 else 0
  | _, _ => 0

def startAt : RoundToken N V → N → ℤ
  | .start p, u => if u = p then 1 else 0
  | _, _ => 0

def closings : RoundToken N V → ℤ
  | .closed => 1
  | _ => 0

/-- Tokens of a round that the root has closed. -/
def late : RoundToken N V → Bool
  | .closed => true
  | .down _ => true
  | _ => false

section Simp

variable {p root u : N} {v : V}

omit [Fintype N]

@[simp] theorem upAt_start : upAt (.start p : RoundToken N V) u = 0 := rfl
@[simp] theorem upAt_up : upAt (.up p v) u = if u = p then 1 else 0 := rfl
@[simp] theorem upAt_closed : upAt (.closed : RoundToken N V) u = 0 := rfl
@[simp] theorem upAt_down : upAt (.down p : RoundToken N V) u = 0 := rfl

@[simp] theorem downAt_start : downAt root (.start p : RoundToken N V) u = 0 := rfl
@[simp] theorem downAt_up : downAt root (.up p v) u = 0 := rfl
@[simp] theorem downAt_closed :
    downAt root (.closed : RoundToken N V) u = if u = root then 1 else 0 := rfl
@[simp] theorem downAt_down :
    downAt root (.down p : RoundToken N V) u = if u = p then 1 else 0 := rfl

@[simp] theorem startAt_start :
    startAt (.start p : RoundToken N V) u = if u = p then 1 else 0 := rfl
@[simp] theorem startAt_up : startAt (.up p v) u = 0 := rfl
@[simp] theorem startAt_closed : startAt (.closed : RoundToken N V) u = 0 := rfl
@[simp] theorem startAt_down : startAt (.down p : RoundToken N V) u = 0 := rfl

omit [DecidableEq N]

@[simp] theorem closings_start : closings (.start p : RoundToken N V) = 0 := rfl
@[simp] theorem closings_up : closings (.up p v) = 0 := rfl
@[simp] theorem closings_closed : closings (.closed : RoundToken N V) = 1 := rfl
@[simp] theorem closings_down : closings (.down p : RoundToken N V) = 0 := rfl

end Simp

omit [Fintype N] in
theorem upAt_nonneg (t : RoundToken N V) (u : N) : 0 ≤ t.upAt u := by
  cases t <;> simp
  split <;> simp

omit [Fintype N] in
theorem downAt_nonneg (root : N) (t : RoundToken N V) (u : N) : 0 ≤ t.downAt root u := by
  cases t <;> simp <;> split <;> simp

omit [Fintype N] in
theorem startAt_nonneg (t : RoundToken N V) (u : N) : 0 ≤ t.startAt u := by
  cases t <;> simp
  split <;> simp

omit [DecidableEq N] [Fintype N] in
theorem closings_nonneg (t : RoundToken N V) : 0 ≤ t.closings := by
  cases t <;> simp

end RoundToken

namespace RoundState

variable (A : RoundState N V)

/-- What comes from a node and has not been used for a round of its parent yet. -/
def up (u : N) : ℤ :=
  (A.tokens.map (RoundToken.upAt · u)).sum + if A.heard u then 1 else 0

def down (root u : N) : ℤ := (A.tokens.map (RoundToken.downAt root · u)).sum

/-- All that is at a node. -/
def weight (root : N) : N → ℤ := fun u => A.up u + A.down root u

def starts (u : N) : ℤ := (A.tokens.map (RoundToken.startAt · u)).sum

def closings : ℤ := (A.tokens.map fun t => t.closings).sum

theorem sum_map_nonneg {α : Type} {f : α → ℤ} (hf : ∀ x, 0 ≤ f x) (m : Multiset α) :
    0 ≤ (m.map f).sum :=
  Multiset.sum_nonneg fun x hx => by
    obtain ⟨y, -, rfl⟩ := Multiset.mem_map.mp hx
    exact hf y

omit [Fintype N] in
theorem up_nonneg (u : N) : 0 ≤ A.up u := by
  refine add_nonneg (sum_map_nonneg (fun t => t.upAt_nonneg u) _) ?_
  split <;> decide

omit [Fintype N] in
theorem down_nonneg (root u : N) : 0 ≤ A.down root u :=
  sum_map_nonneg (fun t => t.downAt_nonneg root u) _

omit [Fintype N] in
theorem weight_nonneg (root u : N) : 0 ≤ A.weight root u :=
  add_nonneg (A.up_nonneg u) (A.down_nonneg root u)

variable {A}

omit [Fintype N] in
/-- A value and a note of it weigh one each. -/
theorem up_pos {p : N} {v : V} (h : .up p v ∈ A.tokens) :
    1 + (if A.heard p then 1 else 0) ≤ A.up p := by
  obtain ⟨rest, hrest⟩ := Multiset.exists_cons_of_mem h
  have := sum_map_nonneg (fun t : RoundToken N V => t.upAt_nonneg p) rest
  simp only [up, hrest, Multiset.map_cons, Multiset.sum_cons, RoundToken.upAt_up, if_true]
  omega

omit [Fintype N] in
theorem down_pos {root u : N} {t : RoundToken N V} (h : t ∈ A.tokens) (ht : t.downAt root u = 1) :
    1 ≤ A.down root u := by
  obtain ⟨rest, hrest⟩ := Multiset.exists_cons_of_mem h
  have := sum_map_nonneg (fun t : RoundToken N V => t.downAt_nonneg root u) rest
  simp only [down, hrest, Multiset.map_cons, Multiset.sum_cons, ht]
  omega

/-- The latest values of the nodes in `s`. -/
def latest (A : RoundState N V) (s : N → Prop) : Set V :=
  {x | ∃ u, s u ∧ (A.contributions u).head? = some x}

omit [Fintype N] [DecidableEq N] in
theorem latest_congr {A A' : RoundState N V} {s s' : N → Prop} (hs : ∀ u, s' u ↔ s u)
    (h : ∀ u, s u → A'.contributions u = A.contributions u) : A'.latest s' = A.latest s := by
  ext x
  refine exists_congr fun u => ?_
  rw [hs u]
  refine and_congr_right fun hu => ?_
  rw [h u hu]

omit [Fintype N] [DecidableEq N] in
theorem latest_or (A : RoundState N V) (s t : N → Prop) :
    (A.latest fun u => s u ∨ t u) = A.latest s ∪ A.latest t := by
  ext x
  simp only [latest, Set.mem_ofPred_eq, Set.mem_union, or_and_right, exists_or]

end RoundState

/-! ## 4. One token on every path -/

namespace Convergecast

variable {G : Convergecast N} {A : RoundState N V} {rest : Multiset (RoundToken N V)}

/-- What is known about where the tokens are. -/
structure Flow (G : Convergecast N) (A : RoundState N V) : Prop where
  /-- There is at most one token on the path to a node. -/
  load_le : ∀ u, G.load (A.weight G.root) u ≤ 1
  /-- A leaf starts when there is none. -/
  leaf_load : ∀ u, G.leaf u → A.starts u + G.load (A.weight G.root) u = 1
  up_root : ∀ p v, .up p v ∈ A.tokens → p ≠ G.root
  heard_root : A.heard G.root = false
  /-- A node is ahead of its parent by the values that have not been used. -/
  ahead : ∀ u, u ≠ G.root →
    ((A.contributions u).length : ℤ) = (A.contributions (G.parent u)).length + A.up u
  closings : ((A.contributions G.root).length : ℤ) = A.read + A.closings
  stuck : ∀ u, G.Stuck u → A.contributions u = []
  late : ∀ t ∈ A.tokens, t.late = true → A.contributions G.root ≠ []

namespace Flow

omit [Fintype N] in
theorem weight_le_load (A : RoundState N V) {q u : N} (h : G.Below q u) :
    A.weight G.root q ≤ G.load (A.weight G.root) u :=
  Tree.le_load (A.weight_nonneg G.root) h

/-- A value that is on its way has not been noted. -/
theorem not_heard (hA : G.Flow A) {p : N} {v : V} (h : .up p v ∈ A.tokens) :
    A.heard p = false := by
  have hup := RoundState.up_pos h
  have hdown := A.down_nonneg G.root p
  have hle := (weight_le_load A .refl).trans (hA.load_le p)
  unfold RoundState.weight at hle
  cases hp : A.heard p with
  | false => rfl
  | true =>
    rw [hp, if_pos rfl] at hup
    omega

/-- When a leaf is about to start, nothing is on its path. -/
theorem start_load (hA : G.Flow A) {p : N} (h : .start p ∈ A.tokens) (hleaf : G.leaf p) :
    G.load (A.weight G.root) p = 0 := by
  obtain ⟨rest, hrest⟩ := Multiset.exists_cons_of_mem h
  have hnonneg := Tree.load_nonneg (T := G.toTree) (A.weight_nonneg G.root) p
  have hrest' := RoundState.sum_map_nonneg (fun t : RoundToken N V => t.startAt_nonneg p) rest
  have hleaf := hA.leaf_load p hleaf
  simp only [RoundState.starts, hrest, Multiset.map_cons, Multiset.sum_cons,
    RoundToken.startAt_start, if_true] at hleaf
  omega

/-- When a value is on its way to a node, nothing is on the path of that node. -/
theorem parent_load (hA : G.Flow A) {p : N} {v : V} (h : .up p v ∈ A.tokens) :
    G.load (A.weight G.root) (G.parent p) = 0 := by
  have hup := RoundState.up_pos h
  have hdown := A.down_nonneg G.root p
  have hle := hA.load_le p
  rw [Tree.load_child _ (hA.up_root p v h)] at hle
  have hnonneg := Tree.load_nonneg (T := G.toTree) (A.weight_nonneg G.root) (G.parent p)
  unfold RoundState.weight at hle hnonneg ⊢
  split at hup <;> omega

/-- No node is ahead of the leaves below it, or behind the root. -/
theorem root_le (hA : G.Flow A) (u : N) :
    (A.contributions G.root).length ≤ (A.contributions u).length := by
  induction u using Tree.induction (T := G.toTree) with
  | root => exact le_rfl
  | child u hu ih =>
    have := hA.ahead u hu
    have := A.up_nonneg u
    omega

/-- Once the root has closed a round, no node is stuck. -/
theorem good_of_late (hA : G.Flow A) (hG : ∀ q, G.Good q ∨ G.Stuck q) {t : RoundToken N V}
    (ht : t ∈ A.tokens) (hlate : t.late = true) (q : N) : G.Good q := by
  refine (hG q).resolve_right fun hstuck => hA.late t ht hlate ?_
  have hle := hA.root_le q
  rw [hA.stuck q hstuck] at hle
  exact List.eq_nil_of_length_eq_zero (Nat.le_zero.mp hle)

end Flow

/-! ### Steps -/

omit [Fintype N] in
theorem length_contribute (f : N → List V) (q u : N) (w : V) :
    ((Function.update f q (w :: f q) u).length : ℤ) = (f u).length + if u = q then 1 else 0 := by
  by_cases hu : u = q
  · subst hu
    simp
  · rw [Function.update_of_ne hu, if_neg hu, add_zero]

theorem not_childOf_leaf {p : N} (hG : G.Good p ∨ G.Stuck p) (hleaf : G.leaf p) (u : N) :
    ¬G.ChildOf u p := by
  have hgood := hG.resolve_right fun h => h.not_leaf hleaf
  intro h
  have := mem_children.mpr h
  rw [hgood.leaf hleaf] at this
  exact Finset.notMem_empty _ this

theorem fan_leaf {p : N} (hG : G.Good p ∨ G.Stuck p) (hleaf : G.leaf p) (u : N) :
    G.fan p u = if u = p then 1 else 0 := by
  rw [Tree.fan, if_neg (not_childOf_leaf hG hleaf u), sub_zero]

omit [Fintype N] in
/-- A token is put on top of a path on which there is none, and those behind it are taken away. -/
theorem load_le_of_fan {w w' : N → ℤ} {q : N} (hw : w' = w + G.fan q)
    (hload : G.load w q ≤ 0) (h : ∀ u, G.load w u ≤ 1) (u : N) : G.load w' u ≤ 1 := by
  rw [hw, Tree.load_add_fan]
  split
  · rename_i hu
    rw [hu]
    omega
  · rw [add_zero]
    exact h u

theorem Flow.start [LinearOrder V] (hA : G.Flow A) {p : N}
    (htokens : A.tokens = .start p ::ₘ rest) (hG : G.Good p ∨ G.Stuck p) (hleaf : G.leaf p)
    (hroot : p ≠ G.root) (v : V) : G.Flow (start A p v rest) := by
  have hmem : .start p ∈ A.tokens := by rw [htokens]; exact Multiset.mem_cons_self _ _
  have hload := hA.start_load hmem hleaf
  have hup : ∀ u, (Convergecast.start A p v rest).up u = A.up u + if u = p then 1 else 0 := by
    intro u
    simp [RoundState.up, Convergecast.start, htokens]
    abel
  have hweight : (Convergecast.start A p v rest).weight G.root = A.weight G.root + G.fan p := by
    funext u
    have hdown : (Convergecast.start A p v rest).down G.root u = A.down G.root u := by
      simp [RoundState.down, Convergecast.start, htokens]
    rw [Pi.add_apply, fan_leaf hG hleaf, RoundState.weight, hup, hdown, RoundState.weight]
    abel
  refine ⟨load_le_of_fan hweight hload.le hA.load_le, fun u hu => ?_, fun q w hq => ?_,
    hA.heard_root, fun u hu => ?_, ?_, fun u hu => ?_, fun t ht hlate => ?_⟩
  · have hu' := hA.leaf_load u hu
    rw [hweight, Tree.load_add_fan]
    simp only [RoundState.starts, Convergecast.start, htokens, Multiset.map_cons,
      Multiset.sum_cons, RoundToken.startAt_start, RoundToken.startAt_up] at hu' ⊢
    omega
  · simp only [Convergecast.start, Multiset.mem_cons, RoundToken.up.injEq] at hq
    rcases hq with ⟨rfl, rfl⟩ | hq
    · exact hroot
    · exact hA.up_root q w (by rw [htokens]; exact Multiset.mem_cons_of_mem hq)
  · have hparent : G.parent u ≠ p := fun h => not_childOf_leaf hG hleaf u ⟨hu, h⟩
    have hu' := hA.ahead u hu
    simp only [Convergecast.start, length_contribute, if_neg hparent] at hup ⊢
    rw [hup]
    omega
  · have hclosings : (Convergecast.start A p v rest).closings = A.closings := by
      simp [RoundState.closings, Convergecast.start, htokens]
    rw [hclosings]
    simp only [Convergecast.start, Function.update_of_ne (Ne.symm hroot)]
    exact hA.closings
  · have hu' : u ≠ p := by
      rintro rfl
      exact hu.not_leaf hleaf
    simp only [Convergecast.start, Function.update_of_ne hu']
    exact hA.stuck u hu
  · simp only [Convergecast.start, Multiset.mem_cons] at ht
    simp only [Convergecast.start, Function.update_of_ne (Ne.symm hroot)]
    rcases ht with rfl | ht
    · cases hlate
    · exact hA.late t (by rw [htokens]; exact Multiset.mem_cons_of_mem ht) hlate

theorem Flow.note [LinearOrder V] (hA : G.Flow A) {p : N} {v : V}
    (htokens : A.tokens = .up p v ::ₘ rest) : G.Flow (G.note A p v rest) := by
  have hmem : .up p v ∈ A.tokens := by rw [htokens]; exact Multiset.mem_cons_self _ _
  have hup : ∀ u, (G.note A p v rest).up u = A.up u := by
    intro u
    have hheard := hA.not_heard hmem
    by_cases hu : u = p
    · subst hu
      simp [RoundState.up, Convergecast.note, htokens, hheard]
      abel
    · simp [RoundState.up, Convergecast.note, htokens, hu]
  have hweight : (G.note A p v rest).weight G.root = A.weight G.root := by
    funext u
    have hdown : (G.note A p v rest).down G.root u = A.down G.root u := by
      simp [RoundState.down, Convergecast.note, htokens]
    rw [RoundState.weight, hup, hdown, RoundState.weight]
  have hstarts : ∀ u, (G.note A p v rest).starts u = A.starts u := by
    intro u
    simp [RoundState.starts, Convergecast.note, htokens]
  have hclosings : (G.note A p v rest).closings = A.closings := by
    simp [RoundState.closings, Convergecast.note, htokens]
  have hrest : ∀ t ∈ rest, t ∈ A.tokens := fun t ht => by
    rw [htokens]
    exact Multiset.mem_cons_of_mem ht
  refine ⟨fun u => ?_, fun u hu => ?_, fun q w hq => hA.up_root q w (hrest _ hq), ?_,
    fun u hu => ?_, ?_, hA.stuck, fun t ht => hA.late t (hrest t ht)⟩
  · rw [hweight]
    exact hA.load_le u
  · rw [hweight, hstarts]
    exact hA.leaf_load u hu
  · exact (Function.update_of_ne (Ne.symm (hA.up_root p v hmem)) _ _).trans hA.heard_root
  · rw [hup]
    exact hA.ahead u hu
  · rw [hclosings]
    exact hA.closings

/-- The values of the children have been used, and there is one of the node itself. -/
theorem complete_up [LinearOrder V] {p q : N} {v : V} (htokens : A.tokens = .up p v ::ₘ rest)
    (hchild : G.ChildOf p q) (hheard : A.heard p = false)
    (hall : ∀ u, G.ChildOf u q → u ≠ p → A.heard u = true) (w : V) (u : N) :
    (G.complete A p q v w rest).up u =
      A.up u + G.fan q u - if u = q ∧ q = G.root then 1 else 0 := by
  have hself := Tree.not_childOf_self (T := G.toTree) q
  have htoken : ∀ m : V, RoundToken.upAt (if q = G.root then .closed else .up q m) u =
      (if u = q then 1 else 0) - if u = q ∧ q = G.root then 1 else 0 := by
    intro m
    by_cases hroot : q = G.root <;> by_cases hu : u = q <;> simp [hroot, hu]
  simp only [RoundState.up, Convergecast.complete, htokens, Multiset.map_cons,
    Multiset.sum_cons, htoken, RoundToken.upAt_up, Tree.fan]
  by_cases hu : G.ChildOf u q
  · have hne : u ≠ q := by
      rintro rfl
      exact hself hu
    by_cases hp : u = p
    · subst hp
      simp [hu, hne, hheard]
    · simp [hu, hne, hp, hall u hu hp]
  · have hp : u ≠ p := by
      rintro rfl
      exact hu hchild
    simp only [if_neg hu, if_neg hp]
    abel

theorem Flow.complete [LinearOrder V] (hA : G.Flow A) {p q : N} {v : V}
    (htokens : A.tokens = .up p v ::ₘ rest) (hG : G.Good q ∨ G.Stuck q)
    (hq : G.parent p = q) (hlast : (G.heardFrom A q).card + 1 = G.needed q) (w : V) :
    G.Flow (G.complete A p q v w rest) := by
  have hmem : .up p v ∈ A.tokens := by rw [htokens]; exact Multiset.mem_cons_self _ _
  have hheard := hA.not_heard hmem
  have hchild : G.ChildOf p q := ⟨hA.up_root p v hmem, hq⟩
  obtain ⟨hleaf, hstuck, hall⟩ := heard_of_complete hG hchild hheard hlast
  have hload : G.load (A.weight G.root) q = 0 := hq ▸ hA.parent_load hmem
  have hup := complete_up htokens hchild hheard hall w
  have hrest : ∀ t ∈ rest, t ∈ A.tokens := fun t ht => by
    rw [htokens]
    exact Multiset.mem_cons_of_mem ht
  have hweight : (G.complete A p q v w rest).weight G.root = A.weight G.root + G.fan q := by
    funext u
    have hdown : (G.complete A p q v w rest).down G.root u =
        A.down G.root u + if u = q ∧ q = G.root then 1 else 0 := by
      by_cases hroot : q = G.root <;>
        simp [RoundState.down, Convergecast.complete, htokens, hroot]
      exact add_comm _ _
    rw [Pi.add_apply, RoundState.weight, hup, hdown, RoundState.weight]
    abel
  have hstarts : ∀ u, (G.complete A p q v w rest).starts u = A.starts u := by
    intro u
    by_cases hroot : q = G.root <;>
      simp [RoundState.starts, Convergecast.complete, htokens, hroot]
  have hlength : ∀ u, (((G.complete A p q v w rest).contributions u).length : ℤ) =
      (A.contributions u).length + if u = q then 1 else 0 := fun u => length_contribute _ _ _ _
  refine ⟨load_le_of_fan hweight hload.le hA.load_le, fun u hu => ?_, fun u x hu => ?_, ?_,
    fun u hu => ?_, ?_, fun u hu => ?_, fun t ht hlate => ?_⟩
  · have hne : u ≠ q := by
      rintro rfl
      exact hleaf hu
    rw [hweight, Tree.load_add_fan, hstarts, if_neg hne, add_zero]
    exact hA.leaf_load u hu
  · rcases Multiset.mem_cons.mp hu with hu | hu
    · by_cases hroot : q = G.root
      · rw [if_pos hroot] at hu
        cases hu
      · rw [if_neg hroot] at hu
        cases hu
        exact hroot
    · exact hA.up_root u x (hrest _ hu)
  · exact (if_neg fun h => h.1 rfl).trans hA.heard_root
  · have hu' := hA.ahead u hu
    have hnroot : ¬(u = q ∧ q = G.root) := fun h => hu (h.1.trans h.2)
    have hc : G.ChildOf u q ↔ G.parent u = q := ⟨And.right, fun h => ⟨hu, h⟩⟩
    rw [hlength, hlength, hup, if_neg hnroot, hu']
    simp only [Tree.fan, hc]
    omega
  · have hclosings : (G.complete A p q v w rest).closings =
        A.closings + if G.root = q then 1 else 0 := by
      by_cases hroot : q = G.root
      · simp [RoundState.closings, Convergecast.complete, htokens, hroot]
        exact add_comm _ _
      · simp [RoundState.closings, Convergecast.complete, htokens, hroot, Ne.symm hroot]
    rw [hlength, hclosings, hA.closings]
    exact add_assoc _ _ _
  · have hne : u ≠ q := by
      rintro rfl
      exact hstuck hu
    exact (Function.update_of_ne hne _ _).trans (hA.stuck u hu)
  · by_cases hroot : G.root = q
    · refine List.ne_nil_of_length_pos ?_
      have := hlength G.root
      rw [if_pos hroot] at this
      omega
    · rcases Multiset.mem_cons.mp ht with rfl | ht
      · rw [if_neg (Ne.symm hroot)] at hlate
        cases hlate
      · exact ne_of_eq_of_ne (Function.update_of_ne hroot _ _) (hA.late t (hrest t ht) hlate)

/-! ### A result is passed on -/

theorem Flow.readMinimum [LinearOrder V] (hA : G.Flow A) (htokens : A.tokens = .closed ::ₘ rest) :
    G.Flow (G.readMinimum A rest) := by
  have hmem : .closed ∈ A.tokens := by rw [htokens]; exact Multiset.mem_cons_self _ _
  have hup : ∀ u, (G.readMinimum A rest).up u = A.up u := by
    intro u
    simp [RoundState.up, Convergecast.readMinimum, htokens]
    rfl
  have hweight : (G.readMinimum A rest).weight G.root = A.weight G.root := by
    funext u
    have hdown : (G.readMinimum A rest).down G.root u = A.down G.root u := by
      simp [RoundState.down, Convergecast.readMinimum, htokens]
    rw [RoundState.weight, hup, hdown, RoundState.weight]
  have hstarts : ∀ u, (G.readMinimum A rest).starts u = A.starts u := by
    intro u
    simp [RoundState.starts, Convergecast.readMinimum, htokens]
  refine ⟨fun u => ?_, fun u hu => ?_, fun u x hu => ?_, hA.heard_root, fun u hu => ?_, ?_,
    hA.stuck, fun _ _ _ => hA.late _ hmem rfl⟩
  · rw [hweight]
    exact hA.load_le u
  · rw [hweight, hstarts]
    exact hA.leaf_load u hu
  · rcases Multiset.mem_cons.mp hu with hu | hu
    · cases hu
    · exact hA.up_root u x (by rw [htokens]; exact Multiset.mem_cons_of_mem hu)
  · rw [hup]
    exact hA.ahead u hu
  · have hclosings := hA.closings
    simp only [RoundState.closings, Convergecast.readMinimum, htokens, Multiset.map_cons,
      Multiset.sum_cons, RoundToken.closings_closed, RoundToken.closings_down] at hclosings ⊢
    push_cast
    omega

omit [Fintype N] in
theorem sum_downAt {l : List N} (hl : l.Nodup) (root u : N) :
    ((l.map (RoundToken.down (V := V))).map (RoundToken.downAt root · u)).sum =
      if u ∈ l then 1 else 0 := by
  induction l with
  | nil => rfl
  | cons p l ih =>
    obtain ⟨hp, hl⟩ := List.nodup_cons.mp hl
    simp only [List.map_cons, List.sum_cons, RoundToken.downAt_down, ih hl, List.mem_cons]
    by_cases hu : u = p
    · subst hu
      simp [hp]
    · simp [hu]

theorem Flow.tell [LinearOrder V] (hA : G.Flow A) (hG : ∀ q, G.Good q ∨ G.Stuck q) {p : N}
    (htokens : A.tokens = .down p ::ₘ rest) (hleaf : ¬G.leaf p) : G.Flow (G.tell A p rest) := by
  have hmem : .down p ∈ A.tokens := by rw [htokens]; exact Multiset.mem_cons_self _ _
  have hgood := hA.good_of_late hG hmem rfl p
  have hzero : ∀ {f : RoundToken N V → ℤ}, (∀ q, f (.down q) = 0) →
      (((G.told p).map RoundToken.down).map f).sum = 0 := by
    intro f hf
    rw [List.map_map]
    exact List.sum_eq_zero fun x hx => by
      obtain ⟨q, -, rfl⟩ := List.mem_map.mp hx
      exact hf q
  have hup : ∀ u, (G.tell A p rest).up u = A.up u := by
    intro u
    simp only [RoundState.up, Convergecast.tell, htokens, Multiset.map_add, Multiset.sum_add,
      Multiset.map_coe, Multiset.sum_coe, Multiset.map_cons, Multiset.sum_cons,
      RoundToken.upAt_down, hzero (f := fun t => t.upAt u) fun _ => rfl]
    rfl
  have hstarts : ∀ u, (G.tell A p rest).starts u = A.starts u := by
    intro u
    simp only [RoundState.starts, Convergecast.tell, htokens, Multiset.map_add, Multiset.sum_add,
      Multiset.map_coe, Multiset.sum_coe, Multiset.map_cons, Multiset.sum_cons,
      RoundToken.startAt_down, hzero (f := fun t => t.startAt u) fun _ => rfl]
  have hweight : A.weight G.root = (G.tell A p rest).weight G.root + G.fan p := by
    funext u
    have hdown : A.down G.root u = (G.tell A p rest).down G.root u + G.fan p u := by
      simp only [RoundState.down, Convergecast.tell, htokens, Multiset.map_add, Multiset.sum_add,
        Multiset.map_coe, Multiset.sum_coe, Multiset.map_cons, Multiset.sum_cons,
        RoundToken.downAt_down, sum_downAt hgood.nodup_told, hgood.mem_told, Tree.fan]
      abel
    rw [Pi.add_apply, RoundState.weight, hdown, RoundState.weight, hup]
    abel
  have hload : ∀ u, G.load ((G.tell A p rest).weight G.root) u =
      G.load (A.weight G.root) u - if u = p then 1 else 0 := by
    intro u
    rw [hweight, Tree.load_add_fan, add_sub_cancel_right]
  have hold : ∀ t ∈ (G.tell A p rest).tokens, t ∈ A.tokens ∨ t.late = true := by
    intro t ht
    rcases Multiset.mem_add.mp ht with ht | ht
    · obtain ⟨q, -, rfl⟩ := List.mem_map.mp (Multiset.mem_coe.mp ht)
      exact .inr rfl
    · exact .inl (by rw [htokens]; exact Multiset.mem_cons_of_mem ht)
  refine ⟨fun u => ?_, fun u hu => ?_, fun u x hu => ?_, hA.heard_root, fun u hu => ?_, ?_,
    hA.stuck, fun _ _ _ => hA.late _ hmem rfl⟩
  · rw [hload]
    have := hA.load_le u
    split <;> omega
  · have hne : u ≠ p := by
      rintro rfl
      exact hleaf hu
    rw [hload, hstarts, if_neg hne, sub_zero]
    exact hA.leaf_load u hu
  · rcases hold _ hu with hu | hu
    · exact hA.up_root u x hu
    · cases hu
  · rw [hup]
    exact hA.ahead u hu
  · have hclosings : (G.tell A p rest).closings = A.closings := by
      simp only [RoundState.closings, Convergecast.tell, htokens, Multiset.map_add,
        Multiset.sum_add, Multiset.map_coe, Multiset.sum_coe, Multiset.map_cons,
        Multiset.sum_cons, RoundToken.closings_down, hzero (f := fun t => t.closings) fun _ => rfl]
    rw [hclosings]
    exact hA.closings

theorem Flow.restart [LinearOrder V] (hA : G.Flow A) {p : N} (hG : G.Good p ∨ G.Stuck p)
    (htokens : A.tokens = .down p ::ₘ rest) (hleaf : G.leaf p) : G.Flow (restart A p rest) := by
  have hmem : .down p ∈ A.tokens := by rw [htokens]; exact Multiset.mem_cons_self _ _
  have hup : ∀ u, (Convergecast.restart A p rest).up u = A.up u := by
    intro u
    simp [RoundState.up, Convergecast.restart, htokens]
    rfl
  have hweight : A.weight G.root =
      (Convergecast.restart A p rest).weight G.root + G.fan p := by
    funext u
    have hdown : A.down G.root u =
        (Convergecast.restart A p rest).down G.root u + if u = p then 1 else 0 := by
      simp [RoundState.down, Convergecast.restart, htokens]
      exact add_comm _ _
    rw [Pi.add_apply, fan_leaf hG hleaf, RoundState.weight, hdown, RoundState.weight, hup]
    abel
  have hload : ∀ u, G.load ((Convergecast.restart A p rest).weight G.root) u =
      G.load (A.weight G.root) u - if u = p then 1 else 0 := by
    intro u
    rw [hweight, Tree.load_add_fan, add_sub_cancel_right]
  refine ⟨fun u => ?_, fun u hu => ?_, fun u x hu => ?_, hA.heard_root, fun u hu => ?_, ?_,
    hA.stuck, fun _ _ _ => hA.late _ hmem rfl⟩
  · rw [hload]
    have := hA.load_le u
    split <;> omega
  · have hstarts : (Convergecast.restart A p rest).starts u =
        A.starts u + if u = p then 1 else 0 := by
      simp [RoundState.starts, Convergecast.restart, htokens]
      exact add_comm _ _
    have := hA.leaf_load u hu
    rw [hload, hstarts]
    omega
  · rcases Multiset.mem_cons.mp hu with hu | hu
    · cases hu
    · exact hA.up_root u x (by rw [htokens]; exact Multiset.mem_cons_of_mem hu)
  · rw [hup]
    exact hA.ahead u hu
  · have hclosings : (Convergecast.restart A p rest).closings = A.closings := by
      simp [RoundState.closings, Convergecast.restart, htokens]
    rw [hclosings]
    exact hA.closings

/-- Every step keeps the tokens in order. -/
theorem Flow.step [LinearOrder V] {A' : RoundState N V} (hG : ∀ q, G.Good q ∨ G.Stuck q)
    (hs : G.Step A A') (hA : G.Flow A) : G.Flow A' := by
  cases hs with
  | start htokens hleaf hroot v => exact hA.start htokens (hG _) hleaf hroot v
  | note htokens => exact hA.note htokens
  | complete htokens _ hq hlast w => exact hA.complete htokens (hG _) hq hlast w
  | readMinimum htokens => exact hA.readMinimum htokens
  | tell htokens hleaf => exact hA.tell hG htokens hleaf
  | restart htokens hleaf => exact hA.restart (hG _) htokens hleaf

/-! ## 5. Minima -/

section Values

variable [LinearOrder V] {v w : V} {p q : N}

/-- Below one of the children that a node has heard from in this round. -/
def BelowHeard (G : Convergecast N) (A : RoundState N V) (q u : N) : Prop :=
  ∃ p, G.ChildOf p q ∧ A.heard p = true ∧ G.Below p u

/-- What is known about the values: they are the minima of the latest values below the nodes they
come from. -/
structure Values (G : Convergecast N) (A : RoundState N V) : Prop where
  up : ∀ p v, .up p v ∈ A.tokens → IsLeast (A.latest (G.Below p)) v
  minimum : ∀ q, (∃ p, G.ChildOf p q ∧ A.heard p = true) →
    IsLeast (A.latest (G.BelowHeard A q)) (A.minimum q)
  closed : .closed ∈ A.tokens → IsLeast (A.latest fun _ => True) (A.minimum G.root)

omit [Fintype N] [LinearOrder V] in
/-- What is at a node was computed without the nodes that have no token on their path. -/
theorem not_below {u : N} (hload : G.load (A.weight G.root) q = 0) (hu : 1 ≤ A.up u) :
    ¬G.Below u q := by
  intro h
  have hle := Flow.weight_le_load A h
  have := A.down_nonneg G.root u
  unfold RoundState.weight at hle hload
  omega

omit [Fintype N] [LinearOrder V] in
theorem up_pos_of_heard (A : RoundState N V) {u : N} (hu : A.heard u = true) : 1 ≤ A.up u := by
  have := RoundState.sum_map_nonneg (fun t : RoundToken N V => t.upAt_nonneg u) A.tokens
  simp only [RoundState.up, hu, if_true]
  omega

omit [Fintype N] [LinearOrder V] in
theorem up_pos_of_mem {u : N} {x : V} (hu : .up u x ∈ A.tokens) : 1 ≤ A.up u := by
  have := RoundState.up_pos hu
  split at this <;> omega

omit [Fintype N] [LinearOrder V] in
/-- While a result is waiting to be read, there is a token on every path. -/
theorem not_closed (hload : G.load (A.weight G.root) q = 0) : .closed ∉ A.tokens := by
  intro h
  have hdown : 1 ≤ A.down G.root G.root := RoundState.down_pos h (if_pos rfl)
  have hle := Flow.weight_le_load A (G.below_root q)
  have := A.up_nonneg G.root
  unfold RoundState.weight at hle hload
  omega

/-- What a node has noted is the minimum below the children it has heard from. -/
theorem Values.noted (hV : G.Values A) (h : .up p v ∈ A.tokens) (hq : G.parent p = q) :
    IsLeast (A.latest fun u => G.Below p u ∨ G.BelowHeard A q u) (G.noted A p v) := by
  rw [RoundState.latest_or, Convergecast.noted, hq]
  by_cases hnone : (G.heardFrom A q).card = 0
  · have hempty : A.latest (G.BelowHeard A q) = ∅ := by
      refine Set.eq_empty_of_forall_notMem ?_
      rintro x ⟨u, ⟨c, hc, hheard, -⟩, -⟩
      have := mem_heardFrom.mpr ⟨hc, hheard⟩
      rw [Finset.card_eq_zero.mp hnone] at this
      exact Finset.notMem_empty _ this
    rw [if_pos (.inl hnone), hempty, Set.union_empty]
    exact hV.up p v h
  · obtain ⟨c, hc⟩ := Finset.card_pos.mp (Nat.pos_of_ne_zero hnone)
    have hleast := (hV.up p v h).union (hV.minimum q ⟨c, mem_heardFrom.mp hc⟩)
    by_cases hlt : v < A.minimum q
    · rwa [if_pos (.inr hlt), ← min_eq_left hlt.le]
    · rwa [if_neg (not_or.mpr ⟨hnone, hlt⟩), ← min_eq_right (not_lt.mp hlt)]

theorem Values.start (hV : G.Values A) (hA : G.Flow A) (htokens : A.tokens = .start p ::ₘ rest)
    (hG : G.Good p ∨ G.Stuck p) (hleaf : G.leaf p) (v : V) :
    G.Values (Convergecast.start A p v rest) := by
  have hmem : .start p ∈ A.tokens := by rw [htokens]; exact Multiset.mem_cons_self _ _
  have hload := hA.start_load hmem hleaf
  have hrest : ∀ t ∈ rest, t ∈ A.tokens := fun t ht => by
    rw [htokens]
    exact Multiset.mem_cons_of_mem ht
  have hsame : ∀ u, u ≠ p →
      (Convergecast.start A p v rest).contributions u = A.contributions u := fun u hu =>
    Function.update_of_ne hu _ _
  refine ⟨fun u x hu => ?_, fun q hq => ?_, fun hclosed => ?_⟩
  · rcases Multiset.mem_cons.mp hu with hu | hu
    · cases hu
      have hone : (Convergecast.start A p v rest).latest (G.Below p) = {v} := by
        ext x
        constructor
        · rintro ⟨u, hu, hx⟩
          obtain rfl := hu.eq_or_child.resolve_right fun h =>
            not_childOf_leaf hG hleaf _ h.choose_spec.1
          simpa [Convergecast.start, eq_comm] using hx
        · rintro rfl
          exact ⟨p, .refl, by simp [Convergecast.start]⟩
      rw [hone]
      exact isLeast_singleton
    · rw [RoundState.latest_congr (fun _ => Iff.rfl) fun u' hu' => hsame u' fun h =>
        not_below hload (up_pos_of_mem (hrest _ hu)) (h ▸ hu')]
      exact hV.up u x (hrest _ hu)
  · rw [RoundState.latest_congr (fun _ => Iff.rfl) fun u' hu' => hsame u' ?_]
    · exact hV.minimum q hq
    · rintro rfl
      obtain ⟨c, -, hheard, hbelow⟩ := hu'
      exact not_below hload (up_pos_of_heard A hheard) hbelow
  · rcases Multiset.mem_cons.mp hclosed with h | h
    · cases h
    · exact absurd (hrest _ h) (not_closed hload)

/-- Below the children of `q`, when the value of the child `p` has been noted. -/
theorem belowHeard_note (hp : G.ChildOf p q) (u : N) :
    G.BelowHeard (G.note A p v rest) q u ↔ G.Below p u ∨ G.BelowHeard A q u := by
  simp only [BelowHeard, Convergecast.note, Function.update_apply]
  constructor
  · rintro ⟨c, hc, hheard, hu⟩
    by_cases hcp : c = p
    · exact .inl (hcp ▸ hu)
    · exact .inr ⟨c, hc, by rwa [if_neg hcp] at hheard, hu⟩
  · rintro (hu | ⟨c, hc, hheard, hu⟩)
    · exact ⟨p, hp, if_pos rfl, hu⟩
    · exact ⟨c, hc, by rw [hheard, ite_self], hu⟩

theorem belowHeard_note_of_ne (hq : G.parent p ≠ q) (u : N) :
    G.BelowHeard (G.note A p v rest) q u ↔ G.BelowHeard A q u := by
  refine exists_congr fun c => and_congr_right fun hc => ?_
  have hcp : c ≠ p := by
    rintro rfl
    exact hq hc.2
  simp only [Convergecast.note, Function.update_of_ne hcp]

theorem Values.note (hV : G.Values A) (hA : G.Flow A) (htokens : A.tokens = .up p v ::ₘ rest) :
    G.Values (G.note A p v rest) := by
  have hmem : .up p v ∈ A.tokens := by rw [htokens]; exact Multiset.mem_cons_self _ _
  have hrest : ∀ t ∈ rest, t ∈ A.tokens := fun t ht => by
    rw [htokens]
    exact Multiset.mem_cons_of_mem ht
  refine ⟨fun u x hu => hV.up u x (hrest _ hu), fun q hq => ?_, fun hclosed => ?_⟩
  · by_cases hqp : G.parent p = q
    · have hp : G.ChildOf p q := ⟨hA.up_root p v hmem, hqp⟩
      rw [RoundState.latest_congr (belowHeard_note hp) fun _ _ => rfl]
      simp only [Convergecast.note, hqp, Function.update_self]
      exact hV.noted hmem hqp
    · rw [RoundState.latest_congr (belowHeard_note_of_ne hqp) fun _ _ => rfl]
      simp only [Convergecast.note, Function.update_of_ne (Ne.symm hqp)]
      obtain ⟨c, hc, hheard⟩ := hq
      have hcp : c ≠ p := by
        rintro rfl
        exact hqp hc.2
      simp only [Convergecast.note, Function.update_of_ne hcp] at hheard
      exact hV.minimum q ⟨c, hc, hheard⟩
  · exact absurd (hrest _ hclosed) (not_closed (hA.parent_load hmem))

/-- A node that completes a round has the minimum below it. -/
theorem Values.completed (hV : G.Values A) (htokens : A.tokens = .up p v ::ₘ rest)
    (hp : G.ChildOf p q) (hall : ∀ u, G.ChildOf u q → u ≠ p → A.heard u = true) (w : V) :
    IsLeast ((G.complete A p q v w rest).latest (G.Below q)) (min w (G.noted A p v)) := by
  have hmem : .up p v ∈ A.tokens := by rw [htokens]; exact Multiset.mem_cons_self _ _
  have hcover : ∀ u, G.Below q u ↔ u = q ∨ G.Below p u ∨ G.BelowHeard A q u := by
    intro u
    constructor
    · intro hu
      rcases hu.eq_or_child with h | ⟨c, hc, hu⟩
      · exact .inl h
      · by_cases hcp : c = p
        · exact .inr (.inl (hcp ▸ hu))
        · exact .inr (.inr ⟨c, hc, hall c hc hcp, hu⟩)
    · rintro (rfl | hu | ⟨c, hc, -, hu⟩)
      · exact .refl
      · exact hp.below hu
      · exact hc.below hu
  rw [RoundState.latest_congr hcover fun _ _ => rfl, RoundState.latest_or]
  refine IsLeast.union ?_ ?_
  · have hone : (G.complete A p q v w rest).latest (· = q) = {w} := by
      ext x
      simp [RoundState.latest, Convergecast.complete, eq_comm]
    rw [hone]
    exact isLeast_singleton
  · have hne : ∀ u, G.Below p u ∨ G.BelowHeard A q u → u ≠ q := by
      rintro u (hu | ⟨c, hc, -, hu⟩)
      · exact hp.ne_of_below hu
      · exact hc.ne_of_below hu
    rw [RoundState.latest_congr (fun _ => Iff.rfl) fun u hu =>
      Function.update_of_ne (hne u hu) _ _]
    exact hV.noted hmem hp.2

theorem complete_heard_child {u : N} (hu : G.ChildOf u q) :
    (G.complete A p q v w rest).heard u = false := if_pos hu

theorem complete_heard_other {u : N} (hu : ¬G.ChildOf u q) :
    (G.complete A p q v w rest).heard u = A.heard u := if_neg hu

theorem Values.complete (hV : G.Values A) (hA : G.Flow A) (htokens : A.tokens = .up p v ::ₘ rest)
    (hG : G.Good q ∨ G.Stuck q) (hq : G.parent p = q)
    (hlast : (G.heardFrom A q).card + 1 = G.needed q) (w : V) :
    G.Values (G.complete A p q v w rest) := by
  have hmem : .up p v ∈ A.tokens := by rw [htokens]; exact Multiset.mem_cons_self _ _
  have hp : G.ChildOf p q := ⟨hA.up_root p v hmem, hq⟩
  obtain ⟨-, -, hall⟩ := heard_of_complete hG hp (hA.not_heard hmem) hlast
  have hleast := hV.completed htokens hp hall w
  have hload : G.load (A.weight G.root) q = 0 := hq ▸ hA.parent_load hmem
  have hrest : ∀ t ∈ rest, t ∈ A.tokens := fun t ht => by
    rw [htokens]
    exact Multiset.mem_cons_of_mem ht
  have hsame : ∀ u, u ≠ q →
      (G.complete A p q v w rest).contributions u = A.contributions u := fun u hu =>
    Function.update_of_ne hu _ _
  refine ⟨fun u x hu => ?_, fun q' hq' => ?_, fun hclosed => ?_⟩
  · rcases Multiset.mem_cons.mp hu with hu | hu
    · split at hu
      · cases hu
      · cases hu
        exact hleast
    · rw [RoundState.latest_congr (fun _ => Iff.rfl) fun u' hu' => hsame u' fun h =>
        not_below hload (up_pos_of_mem (hrest _ hu)) (h ▸ hu')]
      exact hV.up u x (hrest _ hu)
  · obtain ⟨c, hc, hheard⟩ := hq'
    have hne : q' ≠ q := by
      rintro rfl
      rw [complete_heard_child hc] at hheard
      cases hheard
    have hother : ∀ u, G.ChildOf u q' → ¬G.ChildOf u q := fun u hu h => hne (hu.2.symm.trans h.2)
    have hbelow : ∀ u, G.BelowHeard (G.complete A p q v w rest) q' u ↔ G.BelowHeard A q' u := by
      intro u
      refine exists_congr fun c => and_congr_right fun hc => ?_
      rw [complete_heard_other (hother c hc)]
    rw [complete_heard_other (hother c hc)] at hheard
    rw [RoundState.latest_congr hbelow fun u hu => hsame u ?_]
    · simp only [Convergecast.complete, Function.update_of_ne hne]
      exact hV.minimum q' ⟨c, hc, hheard⟩
    · rintro rfl
      obtain ⟨c, -, hheard, hu⟩ := hu
      exact not_below hload (up_pos_of_heard A hheard) hu
  · rcases Multiset.mem_cons.mp hclosed with h | h
    · by_cases hroot : q = G.root
      · subst hroot
        rw [RoundState.latest_congr (fun u => iff_of_true trivial (Tree.below_root u))
          fun _ _ => rfl]
        simp only [Convergecast.complete, Function.update_self]
        exact hleast
      · rw [if_neg hroot] at h
        cases h
    · exact absurd (hrest _ h) (not_closed hload)

omit [DecidableEq N] [Fintype N] in
/-- Values stay true when only tokens of other kinds appear. -/
theorem Values.of_tokens (hV : G.Values A) {A' : RoundState N V} (hheard : A'.heard = A.heard)
    (hminimum : A'.minimum = A.minimum) (hcontributions : A'.contributions = A.contributions)
    (htokens : ∀ t ∈ A'.tokens, t ∈ A.tokens ∨ (∃ p, t = .down p) ∨ ∃ p, t = .start p) :
    G.Values A' := by
  have hlatest : ∀ s, A'.latest s = A.latest s := fun s => by
    simp only [RoundState.latest, hcontributions]
  refine ⟨fun p v h => ?_, fun q hq => ?_, fun h => ?_⟩
  · rcases htokens _ h with h | ⟨_, ⟨⟩⟩ | ⟨_, ⟨⟩⟩
    rw [hlatest]
    exact hV.up p v h
  · have hbelow : G.BelowHeard A' q = G.BelowHeard A q := by
      funext u
      simp only [BelowHeard, hheard]
    rw [hlatest, hminimum, hbelow]
    rw [hheard] at hq
    exact hV.minimum q hq
  · rcases htokens _ h with h | ⟨_, ⟨⟩⟩ | ⟨_, ⟨⟩⟩
    rw [hlatest, hminimum]
    exact hV.closed h

/-- Every step keeps the minima right. -/
theorem Values.step {A' : RoundState N V} (hG : ∀ q, G.Good q ∨ G.Stuck q) (hs : G.Step A A')
    (hA : G.Flow A) (hV : G.Values A) : G.Values A' := by
  cases hs with
  | start htokens hleaf _ v => exact hV.start hA htokens (hG _) hleaf v
  | note htokens => exact hV.note hA htokens
  | complete htokens _ hq hlast w => exact hV.complete hA htokens (hG _) hq hlast w
  | readMinimum htokens =>
    refine hV.of_tokens rfl rfl rfl fun t ht => ?_
    rcases Multiset.mem_cons.mp ht with rfl | ht
    · exact .inr (.inl ⟨_, rfl⟩)
    · exact .inl (by rw [htokens]; exact Multiset.mem_cons_of_mem ht)
  | tell htokens =>
    refine hV.of_tokens rfl rfl rfl fun t ht => ?_
    rcases Multiset.mem_add.mp ht with ht | ht
    · obtain ⟨q, -, rfl⟩ := List.mem_map.mp (Multiset.mem_coe.mp ht)
      exact .inr (.inl ⟨_, rfl⟩)
    · exact .inl (by rw [htokens]; exact Multiset.mem_cons_of_mem ht)
  | restart htokens =>
    refine hV.of_tokens rfl rfl rfl fun t ht => ?_
    rcases Multiset.mem_cons.mp ht with rfl | ht
    · exact .inr (.inr ⟨_, rfl⟩)
    · exact .inl (by rw [htokens]; exact Multiset.mem_cons_of_mem ht)

end Values

/-! ## 6. Rounds -/

/-- Everything that is known about a state. -/
structure Sound [LinearOrder V] (G : Convergecast N) (A : RoundState N V) : Prop where
  flow : G.Flow A
  values : G.Values A

/-- At the start every leaf is about to contribute. -/
structure Initial (G : Convergecast N) (A : RoundState N V) : Prop where
  heard : ∀ u, A.heard u = false
  contributions : ∀ u, A.contributions u = []
  read : A.read = 0
  tokens : ∀ t ∈ A.tokens, ∃ p, t = .start p
  starts : ∀ u, G.leaf u → A.starts u = 1

omit [Fintype N] in
theorem Initial.sum_eq_zero (hA : G.Initial A) {f : RoundToken N V → ℤ}
    (hf : ∀ p, f (.start p) = 0) : (A.tokens.map f).sum = 0 :=
  Multiset.sum_eq_zero fun x hx => by
    obtain ⟨t, ht, rfl⟩ := Multiset.mem_map.mp hx
    obtain ⟨p, rfl⟩ := hA.tokens t ht
    exact hf p

theorem Initial.sound [LinearOrder V] (hA : G.Initial A) : G.Sound A := by
  have hup : ∀ u, A.up u = 0 := fun u => by
    rw [RoundState.up, hA.sum_eq_zero (f := fun t => t.upAt u) fun _ => rfl, hA.heard]
    rfl
  have hdown : ∀ u, A.down G.root u = 0 := fun u =>
    hA.sum_eq_zero (f := fun t => t.downAt G.root u) fun _ => rfl
  have hload : ∀ u, G.load (A.weight G.root) u = 0 := by
    intro u
    induction u using Tree.induction (T := G.toTree) with
    | root => rw [Tree.load_root, RoundState.weight, hup, hdown]; rfl
    | child u hu ih => rw [Tree.load_child _ hu, ih, RoundState.weight, hup, hdown]; rfl
  refine ⟨⟨fun u => ?_, fun u hu => ?_, fun p v h => ?_, hA.heard _, fun u _ => ?_, ?_,
    fun u _ => hA.contributions u, fun t ht hlate => ?_⟩, ⟨fun p v h => ?_, fun q hq => ?_,
    fun h => ?_⟩⟩
  · rw [hload]
    exact zero_le_one
  · rw [hload, hA.starts u hu]
    rfl
  · obtain ⟨_, ⟨⟩⟩ := hA.tokens _ h
  · rw [hA.contributions, hA.contributions, hup]
    rfl
  · rw [hA.contributions, hA.read, RoundState.closings,
      hA.sum_eq_zero (f := fun t => t.closings) fun _ => rfl]
    rfl
  · obtain ⟨p, rfl⟩ := hA.tokens _ ht
    cases hlate
  · obtain ⟨_, ⟨⟩⟩ := hA.tokens _ h
  · obtain ⟨p, -, hheard⟩ := hq
    rw [hA.heard] at hheard
    cases hheard
  · obtain ⟨_, ⟨⟩⟩ := hA.tokens _ h

/-- **Every step keeps a state sound.** -/
theorem Sound.step [LinearOrder V] {A' : RoundState N V} (hG : ∀ q, G.Good q ∨ G.Stuck q)
    (hs : G.Step A A') (hA : G.Sound A) : G.Sound A' :=
  ⟨hA.flow.step hG hs, hA.values.step hG hs hA.flow⟩

namespace Flow

/-- A node is at most one contribution ahead of its parent. -/
theorem ahead_parent (hA : G.Flow A) {u : N} (hu : u ≠ G.root) :
    (A.contributions (G.parent u)).length ≤ (A.contributions u).length ∧
      (A.contributions u).length ≤ (A.contributions (G.parent u)).length + 1 := by
  have hahead := hA.ahead u hu
  have hup := A.up_nonneg u
  have hdown := A.down_nonneg G.root u
  have hle := (weight_le_load A .refl).trans (hA.load_le u)
  unfold RoundState.weight at hle
  omega

/-- What a node is ahead of the root lies on its path. -/
theorem length_add_le (hA : G.Flow A) {n : ℤ} (hn : n ≤ A.weight G.root G.root) (u : N) :
    (A.contributions u).length + n ≤
      (A.contributions G.root).length + G.load (A.weight G.root) u := by
  induction u using Tree.induction (T := G.toTree) with
  | root =>
    rw [Tree.load_root]
    exact add_le_add le_rfl hn
  | child u hu ih =>
    have hahead := hA.ahead u hu
    have hdown := A.down_nonneg G.root u
    rw [Tree.load_child _ hu]
    unfold RoundState.weight at ih ⊢
    omega

/-- All nodes are in the same round or in the next one. -/
theorem ahead_root (hA : G.Flow A) (u : N) :
    (A.contributions u).length ≤ (A.contributions G.root).length + 1 := by
  have := hA.length_add_le (A.weight_nonneg G.root G.root) u
  have := hA.load_le u
  omega

/-- When the root is about to read the minimum of a round, every node has contributed to this
round and to all before it, and to none after it. -/
theorem length_of_closed (hA : G.Flow A) (h : .closed ∈ A.tokens) (u : N) :
    (A.contributions u).length = A.read + 1 := by
  obtain ⟨rest, hrest⟩ := Multiset.exists_cons_of_mem h
  have hdown : 1 ≤ A.down G.root G.root := RoundState.down_pos h (if_pos rfl)
  have hone : 1 ≤ A.weight G.root G.root := by
    have := A.up_nonneg G.root
    unfold RoundState.weight
    omega
  have hle := hA.length_add_le hone u
  have hload := hA.load_le u
  have hroot := hA.root_le u
  have hload_root := hA.load_le G.root
  have hclosings := hA.closings
  have hcount : A.closings ≤ A.down G.root G.root := by
    refine Multiset.sum_map_le_sum_map _ _ fun t _ => ?_
    cases t <;> simp
    split <;> simp
  have hpos : 1 ≤ A.closings := by
    have : 0 ≤ (rest.map fun t => t.closings).sum :=
      RoundState.sum_map_nonneg RoundToken.closings_nonneg rest
    simp only [RoundState.closings, hrest, Multiset.map_cons, Multiset.sum_cons,
      RoundToken.closings_closed]
    omega
  have hup := A.up_nonneg G.root
  rw [Tree.load_root] at hload_root
  unfold RoundState.weight at hload_root
  omega

end Flow

end Convergecast

end CCSim
