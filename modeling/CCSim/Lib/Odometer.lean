/-
# Odometers

A wheel shows a reading, and a turn moves it on; the turn that brings it back to its first reading
is an overflow.  In an odometer the first wheel turns each time, and the next one turns with it when
it overflows.  `Wheel.Carries.cycles` says what such a pair shows: all pairs of readings, those of
the first wheel fastest, and it overflows when all of them have been shown.  Conversely a pair
overflows only when both of its wheels do (`Wheel.Carries.overflows`).  A longer row is a first wheel
and a row.
-/
import Mathlib.Data.List.Basic
import Mathlib.Algebra.Order.Group.Nat

namespace CCSim

variable {σ σ₁ σ₂ α β γ : Type}

/-- What a state shows, and its next state with whether that is an overflow; without a next state
the wheel is stuck. -/
structure Wheel (σ α : Type) where
  reading : σ → α
  advance : σ → Option (Bool × σ)

/-- From `state 0` on the wheel goes through the readings `l`, over and over, and overflows each
time it comes back to the first one. -/
structure Wheel.Cycles (W : Wheel σ α) (l : List α) (state : ℕ → σ) : Prop where
  reading : ∀ m, l[m % l.length]? = some (W.reading (state m))
  advance : ∀ m, W.advance (state m) = some (decide ((m + 1) % l.length = 0), state (m + 1))

/-- The wheel overflows after finitely many turns. -/
inductive Wheel.Overflows (W : Wheel σ α) : σ → Prop
  | now {s s' : σ} (h : W.advance s = some (true, s')) : W.Overflows s
  | later {s s' : σ} (h : W.advance s = some (false, s')) (ih : W.Overflows s') : W.Overflows s

/-- `W` is made of `W₁` and `W₂`: each turn of `W` turns `W₁`, and `W₂` too if `W₁` overflows. -/
structure Wheel.Carries (W₁ : Wheel σ₁ α) (W₂ : Wheel σ₂ β) (W : Wheel σ γ) (pack : σ₁ → σ₂ → σ)
    (f : α → β → γ) : Prop where
  reading : ∀ s t, W.reading (pack s t) = f (W₁.reading s) (W₂.reading t)
  stuck : ∀ s t, W₁.advance s = none → W.advance (pack s t) = none
  turn : ∀ s t s', W₁.advance s = some (false, s') →
    W.advance (pack s t) = some (false, pack s' t)
  carry : ∀ s t s', W₁.advance s = some (true, s') →
    W.advance (pack s t) = (W₂.advance t).map fun next => (next.1, pack s' next.2)

namespace Wheel

variable {W : Wheel σ α} {l : List α} {state : ℕ → σ}

/-! ## 1. One wheel -/

theorem Cycles.length_pos (h : W.Cycles l state) : 0 < l.length := by
  have hread := h.reading 0
  rw [List.getElem?_eq_some_iff] at hread
  obtain ⟨hlt, -⟩ := hread
  omega

/-- A wheel whose states are the places of a list. -/
theorem cycles_of_places {place : ℕ → σ} (hpos : 0 < l.length)
    (hreading : ∀ i < l.length, l[i]? = some (W.reading (place i)))
    (hturn : ∀ i, i + 1 < l.length → W.advance (place i) = some (false, place (i + 1)))
    (hback : ∀ i, i + 1 = l.length → W.advance (place i) = some (true, place 0)) :
    W.Cycles l fun m => place (m % l.length) := by
  refine ⟨fun m => hreading _ (Nat.mod_lt m hpos), fun m => ?_⟩
  have hlt := Nat.mod_lt m hpos
  have hmod : (m + 1) % l.length = (m % l.length + 1) % l.length := (Nat.mod_add_mod m _ 1).symm
  by_cases hlast : m % l.length + 1 = l.length
  · have hzero : (m + 1) % l.length = 0 := by rw [hmod, hlast, Nat.mod_self]
    rw [hback _ hlast, hzero, decide_eq_true rfl]
  · have hnext : (m + 1) % l.length = m % l.length + 1 := by
      rw [hmod, Nat.mod_eq_of_lt (by omega)]
    rw [hturn _ (by omega), hnext, decide_eq_false (Nat.succ_ne_zero _)]

/-! ## 2. Two wheels -/

theorem getElem?_flatMap_of_length {g : β → List γ} {n : ℕ} (hg : ∀ b, (g b).length = n) :
    ∀ (l₂ : List β) (q r : ℕ), r < n → (l₂.flatMap g)[r + n * q]? = l₂[q]?.bind fun b => (g b)[r]?
  | [], q, r, _ => by simp
  | b :: l₂, 0, r, hr => by
    rw [List.flatMap_cons, Nat.mul_zero, Nat.add_zero,
      List.getElem?_append_left (by rw [hg]; exact hr)]
    simp
  | b :: l₂, q + 1, r, hr => by
    have hle : (g b).length ≤ r + n * (q + 1) := by
      rw [hg, Nat.mul_succ]
      omega
    have hsub : r + n * (q + 1) - (g b).length = r + n * q := by
      rw [hg, Nat.mul_succ]
      omega
    rw [List.flatMap_cons, List.getElem?_append_right hle, hsub,
      getElem?_flatMap_of_length hg l₂ q r hr, List.getElem?_cons_succ]

theorem length_flatMap_of_length {g : β → List γ} {n : ℕ} (hg : ∀ b, (g b).length = n) :
    ∀ l₂ : List β, (l₂.flatMap g).length = n * l₂.length
  | [] => by simp
  | b :: l₂ => by
    rw [List.flatMap_cons, List.length_append, hg, length_flatMap_of_length hg l₂,
      List.length_cons, Nat.mul_succ, Nat.add_comm]

variable {W₁ : Wheel σ₁ α} {W₂ : Wheel σ₂ β} {V : Wheel σ γ} {pack : σ₁ → σ₂ → σ}
  {f : α → β → γ} {l₁ : List α} {l₂ : List β} {state₁ : ℕ → σ₁} {state₂ : ℕ → σ₂}

/-- **Two wheels show all pairs of readings**, and overflow after the last one: when `m` turns have
been made, `W₂` has made one for each full round of `W₁`. -/
theorem Carries.cycles (h : Carries W₁ W₂ V pack f) (h₁ : W₁.Cycles l₁ state₁)
    (h₂ : W₂.Cycles l₂ state₂) :
    V.Cycles (l₂.flatMap fun b => l₁.map fun a => f a b)
      fun m => pack (state₁ m) (state₂ (m / l₁.length)) := by
  have hlength : ∀ b, (l₁.map fun a => f a b).length = l₁.length := fun b => List.length_map _
  have hmul := length_flatMap_of_length hlength l₂
  refine ⟨fun m => ?_, fun m => ?_⟩
  · rw [hmul, Nat.mod_mul, getElem?_flatMap_of_length hlength _ _ _ (Nat.mod_lt _ h₁.length_pos),
      h₂.reading, Option.bind_some, List.getElem?_map, h₁.reading, Option.map_some, h.reading]
  · rw [hmul]
    by_cases hround : (m + 1) % l₁.length = 0
    · have hturn := h₁.advance m
      rw [decide_eq_true hround] at hturn
      have hzero : (m + 1) % (l₁.length * l₂.length) = 0 ↔
          (m / l₁.length + 1) % l₂.length = 0 := by
        rw [Nat.mod_mul, hround, Nat.succ_div_of_mod_eq_zero hround, Nat.zero_add,
          Nat.mul_eq_zero, or_iff_right h₁.length_pos.ne']
      rw [h.carry _ _ _ hturn, h₂.advance, Option.map_some, Nat.succ_div_of_mod_eq_zero hround,
        decide_eq_decide.mpr hzero]
    · have hturn := h₁.advance m
      rw [decide_eq_false hround] at hturn
      have hnonzero : (m + 1) % (l₁.length * l₂.length) ≠ 0 := by
        rw [Nat.mod_mul]
        omega
      rw [h.turn _ _ _ hturn, Nat.succ_div_of_mod_ne_zero hround, decide_eq_false hnonzero]

/-- A pair of wheels overflows only when both do. -/
theorem Carries.overflows (h : Carries W₁ W₂ V pack f) {s : σ₁} {t : σ₂}
    (hover : V.Overflows (pack s t)) : W₁.Overflows s ∧ W₂.Overflows t := by
  generalize hp : pack s t = p at hover
  induction hover generalizing s t with
  | now hadvance =>
    subst hp
    rcases hs : W₁.advance s with - | ⟨overflow, s'⟩
    · rw [h.stuck s t hs] at hadvance
      cases hadvance
    · cases overflow
      · rw [h.turn s t s' hs] at hadvance
        cases hadvance
      · rw [h.carry s t s' hs, Option.map_eq_some_iff] at hadvance
        obtain ⟨⟨overflow, t'⟩, ht, heq⟩ := hadvance
        cases heq
        exact ⟨.now hs, .now ht⟩
  | later hadvance _ ih =>
    subst hp
    rcases hs : W₁.advance s with - | ⟨overflow, s'⟩
    · rw [h.stuck s t hs] at hadvance
      cases hadvance
    · cases overflow
      · rw [h.turn s t s' hs] at hadvance
        cases hadvance
        exact ⟨.later hs (ih rfl).1, (ih rfl).2⟩
      · rw [h.carry s t s' hs, Option.map_eq_some_iff] at hadvance
        obtain ⟨⟨overflow, t'⟩, ht, heq⟩ := hadvance
        cases heq
        exact ⟨.now hs, .later ht (ih rfl).2⟩

end Wheel

end CCSim
